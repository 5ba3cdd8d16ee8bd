import FilterQuery.Query.Rendering

/-!
The grammar of queries: clauses, which are predicates on a field, negations and groups, and the
bodies of predicates. Its words, the keys and the texts of values, stand between delimiters. When no
word holds a delimiter, a query can be read in one way only (`Clause.text_append_inj`): a clause and
where it ends are determined by the text that begins with it.
-/
namespace FilterQuery.Query

/-- The characters that the grammar uses itself. -/
def delimiters : List Char := ['@', ':', '\x7b', '\x7d', '[', ']', '(', ')', '"', '|', ' ']

/-- A word without delimiters. -/
def Plain (word : List Char) : Prop := ∀ c ∈ word, c ∉ delimiters

instance (word : List Char) : Decidable (Plain word) :=
  List.decidableBAll (· ∉ delimiters) word

theorem plain_nil : Plain [] := by
  intro c member
  cases member

theorem plain_cons {c : Char} {word : List Char} :
    Plain (c :: word) ↔ c ∉ delimiters ∧ Plain word :=
  List.forall_mem_cons

theorem plain_append {a b : List Char} : Plain (a ++ b) ↔ Plain a ∧ Plain b :=
  List.forall_mem_append

/-- A word ends at the first delimiter. -/
theorem Plain.append_inj {a b x y : List Char} {c d : Char} (plainA : Plain a) (plainB : Plain b)
    (delimiterC : c ∈ delimiters) (delimiterD : d ∈ delimiters)
    (same : a ++ c :: x = b ++ d :: y) : a = b ∧ c = d ∧ x = y := by
  induction a generalizing b with
  | nil =>
    cases b with
    | nil => simpa using same
    | cons e b =>
      obtain ⟨rfl, _⟩ := List.cons.inj same
      exact absurd delimiterC (plain_cons.mp plainB).1
  | cons e a ih =>
    cases b with
    | nil =>
      obtain ⟨rfl, _⟩ := List.cons.inj same
      exact absurd delimiterD (plain_cons.mp plainA).1
    | cons f b =>
      obtain ⟨rfl, rest⟩ := List.cons.inj same
      obtain ⟨rfl, ends⟩ := ih (plain_cons.mp plainA).2 (plain_cons.mp plainB).2 rest
      exact ⟨rfl, ends⟩

/-- The parenthesis that excludes an end. -/
def exclusion (exclusive : Bool) : List Char := if exclusive then ['('] else []

/-- An end is excluded or not, and where its word ends no parenthesis can follow. -/
theorem exclusion_append_inj {p q : Bool} {a b x y : List Char} {c d : Char} (plainA : Plain a)
    (plainB : Plain b) (delimiterC : c ∈ delimiters) (delimiterD : d ∈ delimiters) (notC : c ≠ '(')
    (notD : d ≠ '(') (same : exclusion p ++ a ++ c :: x = exclusion q ++ b ++ d :: y) :
    p = q ∧ a = b ∧ c = d ∧ x = y := by
  have clash : ∀ {w u v : List Char} {e : Char}, Plain w → e ∈ delimiters → e ≠ '(' →
      '(' :: u ≠ w ++ e :: v := by
    intro w u v e plain delimiter other same
    obtain ⟨_, here, _⟩ := plain_nil.append_inj plain (by decide) delimiter same
    exact other here.symm
  cases p with
  | false =>
    cases q with
    | false => exact ⟨rfl, plainA.append_inj plainB delimiterC delimiterD same⟩
    | true => exact absurd same.symm (clash plainA delimiterC notC)
  | true =>
    cases q with
    | false => exact absurd same (clash plainB delimiterD notD)
    | true =>
      obtain ⟨_, rest⟩ := List.cons.inj same
      exact ⟨rfl, plainA.append_inj plainB delimiterC delimiterD rest⟩

end FilterQuery.Query

namespace FilterQuery.Bound

open Query

/-- The end does not belong to the interval. -/
def isExclusive : Bound → Bool
  | value _ exclusive => exclusive
  | positiveInfinity | negativeInfinity => false

/-- The end without the parenthesis that may stand before it. -/
def word : Bound → String
  | value v _ => v.queryText
  | positiveInfinity => "inf"
  | negativeInfinity => "-inf"

theorem toList_text (bound : Bound) :
    bound.text.toList = exclusion bound.isExclusive ++ bound.word.toList := by
  cases bound with
  | value v exclusive =>
    cases exclusive with
    | false => rfl
    | true => exact String.toList_append
  | positiveInfinity | negativeInfinity => rfl

/-- An end that can be recognised from its text: an infinity, or a plain word that is not the word
of an infinity. -/
inductive Legible : Bound → Prop where
  | word {word : String} (exclusive : Bool) (plain : Plain word.toList) (notPositive : word ≠ "inf")
    (notNegative : word ≠ "-inf") : Legible (.value (.string word) exclusive)
  | positiveInfinity : Legible .positiveInfinity
  | negativeInfinity : Legible .negativeInfinity

theorem Legible.plain_word {bound : Bound} (legible : bound.Legible) :
    Plain bound.word.toList := by
  cases legible with
  | word exclusive plain => exact plain
  | positiveInfinity | negativeInfinity => decide

/-- An end is its parenthesis and its word. -/
theorem Legible.ext {a b : Bound} (legibleA : a.Legible) (legibleB : b.Legible)
    (exclusives : a.isExclusive = b.isExclusive) (words : a.word = b.word) : a = b := by
  cases legibleA with
  | word exclusive plain notPositive notNegative =>
    cases legibleB with
    | word exclusive' =>
      cases exclusives
      cases (show _ = _ from words)
      rfl
    | positiveInfinity => exact absurd words notPositive
    | negativeInfinity => exact absurd words notNegative
  | positiveInfinity =>
    cases legibleB with
    | word exclusive plain notPositive => exact absurd words.symm notPositive
    | positiveInfinity => rfl
    | negativeInfinity => exact absurd words (by decide)
  | negativeInfinity =>
    cases legibleB with
    | word exclusive plain notPositive notNegative => exact absurd words.symm notNegative
    | positiveInfinity => exact absurd words (by decide)
    | negativeInfinity => rfl

theorem text_append_inj {a b : Bound} {x y : List Char} {c d : Char} (legibleA : a.Legible)
    (legibleB : b.Legible) (delimiterC : c ∈ delimiters) (delimiterD : d ∈ delimiters)
    (notC : c ≠ '(') (notD : d ≠ '(')
    (same : a.text.toList ++ c :: x = b.text.toList ++ d :: y) : a = b ∧ c = d ∧ x = y := by
  rw [toList_text, toList_text] at same
  obtain ⟨exclusives, words, ends⟩ := exclusion_append_inj legibleA.plain_word legibleB.plain_word
    delimiterC delimiterD notC notD same
  exact ⟨legibleA.ext legibleB exclusives (String.toList_inj.mp words), ends⟩

end FilterQuery.Bound

namespace FilterQuery.Query

/-- The delimiter of alternatives. -/
def bar : List Char := [' ', '|', ' ']

theorem toList_alternatives (texts : List String) :
    (FieldType.alternatives texts).toList = bar.intercalate (texts.map String.toList) :=
  String.toList_intercalate

/-- Items between bars are determined, with their number, by their text up to a closing bracket, if
an item and where it ends are determined by the text that begins with it. -/
theorem intercalate_append_inj {α : Type} {item : α → List Char} {close : Char}
    (notSpace : close ≠ ' ') (closing : close ∈ delimiters) {as bs : List α}
    (itemInj : ∀ a ∈ as, ∀ b ∈ bs, ∀ {x y : List Char} {c d : Char}, c ∈ delimiters →
      d ∈ delimiters → item a ++ c :: x = item b ++ d :: y → a = b ∧ c = d ∧ x = y)
    (listedA : as ≠ []) (listedB : bs ≠ []) {x y : List Char}
    (same : bar.intercalate (as.map item) ++ close :: x =
      bar.intercalate (bs.map item) ++ close :: y) : as = bs ∧ x = y := by
  induction as generalizing bs with
  | nil => exact absurd rfl listedA
  | cons a as ih =>
    cases bs with
    | nil => exact absurd rfl listedB
    | cons b bs =>
      have first {x y : List Char} {c d : Char} :=
        @itemInj a List.mem_cons_self b List.mem_cons_self x y c d
      cases as with
      | nil =>
        cases bs with
        | nil =>
          obtain ⟨rfl, _, rest⟩ := first closing closing (by simpa using same)
          exact ⟨rfl, rest⟩
        | cons b' bs =>
          obtain ⟨_, here, _⟩ := first (d := ' ') closing (by decide)
            (by simpa [List.intercalate_cons_cons, bar] using same)
          exact absurd here notSpace
      | cons a' as =>
        cases bs with
        | nil =>
          obtain ⟨_, here, _⟩ := first (c := ' ') (by decide) closing
            (by simpa [List.intercalate_cons_cons, bar] using same)
          exact absurd here.symm notSpace
        | cons b' bs =>
          simp only [List.map_cons, List.intercalate_cons_cons, bar, List.append_assoc,
            List.cons_append, List.nil_append] at same
          obtain ⟨rfl, _, rest⟩ := first (by decide) (by decide) same
          obtain ⟨tails, ends⟩ := ih (fun a memberA b memberB =>
            itemInj a (List.mem_cons_of_mem _ memberA) b (List.mem_cons_of_mem _ memberB))
            (by simp) (by simp) (by simpa [bar] using rest)
          exact ⟨congrArg _ tails, ends⟩

/-- What a predicate says of its field. -/
inductive Body where
  | interval (lower upper : Bound)
  | tags (words : List String)
  | phrase (word : String)
  | phrases (words : List String)

namespace Body

def text : Body → String
  | interval lower upper => Brackets.interval.wrapPair lower.text upper.text
  | tags words => Brackets.tag.wrap (FieldType.alternatives words)
  | phrase word => Brackets.phrase.wrap word
  | phrases words => Brackets.choice.wrap (FieldType.alternatives (words.map Brackets.phrase.wrap))

/-- The words of a body are plain, its ends are legible, and it has words where it lists words. -/
def Legible : Body → Prop
  | interval lower upper => lower.Legible ∧ upper.Legible
  | phrase word => Plain word.toList
  | tags words | phrases words => words ≠ [] ∧ ∀ word ∈ words, Plain word.toList

theorem toList_text_interval (lower upper : Bound) : (interval lower upper).text.toList =
    '[' :: (lower.text.toList ++ ' ' :: (upper.text.toList ++ [']'])) := by
  simp [text, Brackets.interval, Brackets.wrapPair, Brackets.wrap]

theorem toList_text_tags (words : List String) : (tags words).text.toList =
    '\x7b' :: (bar.intercalate (words.map String.toList) ++ ['\x7d']) := by
  simp [text, Brackets.tag, Brackets.wrap, toList_alternatives]

/-- A word in quotation marks. -/
def quotation (word : String) : List Char := '"' :: (word.toList ++ ['"'])

theorem toList_text_phrase (word : String) : (phrase word).text.toList = quotation word := by
  simp [text, Brackets.phrase, Brackets.wrap, quotation]

theorem toList_text_phrases (words : List String) : (phrases words).text.toList =
    '(' :: (bar.intercalate (words.map quotation) ++ [')']) := by
  simp only [text, Brackets.choice, Brackets.wrap, toList_alternatives, String.toList_append,
    List.map_map]
  rw [show String.toList ∘ Brackets.phrase.wrap = quotation from funext toList_text_phrase]
  rfl

/-- A quotation ends with its second mark. -/
theorem quotation_append_inj {v w : String} {x y : List Char} (plainV : Plain v.toList)
    (plainW : Plain w.toList) (same : quotation v ++ x = quotation w ++ y) : v = w ∧ x = y := by
  obtain ⟨_, rest⟩ := List.cons.inj same
  obtain ⟨words, _, ends⟩ := plainV.append_inj plainW (c := '"') (d := '"') (by decide) (by decide)
    (by simpa using rest)
  exact ⟨String.toList_inj.mp words, ends⟩

/-- The bracket or mark that opens a body. -/
def opening : Body → Char
  | interval _ _ => '['
  | tags _ => '\x7b'
  | phrase _ => '"'
  | phrases _ => '('

theorem exists_toList_text (body : Body) : ∃ rest, body.text.toList = body.opening :: rest := by
  cases body with
  | interval lower upper => exact ⟨_, toList_text_interval lower upper⟩
  | tags words => exact ⟨_, toList_text_tags words⟩
  | phrase word => exact ⟨_, toList_text_phrase word⟩
  | phrases words => exact ⟨_, toList_text_phrases words⟩

theorem opening_eq {a b : Body} {x y : List Char}
    (same : a.text.toList ++ x = b.text.toList ++ y) : a.opening = b.opening := by
  obtain ⟨rest, startA⟩ := a.exists_toList_text
  obtain ⟨rest', startB⟩ := b.exists_toList_text
  rw [startA, startB] at same
  exact (List.cons.inj same).1

/-- A body and where it ends are determined by the text that begins with it. -/
theorem text_append_inj {a b : Body} {x y : List Char} (legibleA : a.Legible)
    (legibleB : b.Legible) (same : a.text.toList ++ x = b.text.toList ++ y) : a = b ∧ x = y := by
  cases a with
  | interval lower upper =>
    cases b with
    | interval lower' upper' =>
      simp only [toList_text_interval, List.cons_append, List.append_assoc, List.cons.injEq,
        true_and, List.nil_append] at same
      obtain ⟨rfl, _, rest⟩ := Bound.text_append_inj legibleA.1 legibleB.1 (by decide) (by decide)
        (by decide) (by decide) same
      obtain ⟨rfl, _, ends⟩ := Bound.text_append_inj legibleA.2 legibleB.2 (by decide) (by decide)
        (by decide) (by decide) rest
      exact ⟨rfl, ends⟩
    | tags | phrase | phrases => simpa [opening] using opening_eq same
  | tags words =>
    cases b with
    | tags words' =>
      simp only [toList_text_tags, List.cons_append, List.append_assoc, List.cons.injEq, true_and,
        List.nil_append] at same
      obtain ⟨rfl, ends⟩ := intercalate_append_inj (by decide) (by decide)
        (fun v memberV w memberW {x y c d} delimiterC delimiterD same => by
          obtain ⟨equal, ends⟩ := (legibleA.2 v memberV).append_inj (legibleB.2 w memberW)
            delimiterC delimiterD same
          exact ⟨String.toList_inj.mp equal, ends⟩) legibleA.1 legibleB.1 same
      exact ⟨rfl, ends⟩
    | interval | phrase | phrases => simpa [opening] using opening_eq same
  | phrase word =>
    cases b with
    | phrase word' =>
      rw [toList_text_phrase, toList_text_phrase] at same
      obtain ⟨rfl, ends⟩ := quotation_append_inj legibleA legibleB same
      exact ⟨rfl, ends⟩
    | interval | tags | phrases => simpa [opening] using opening_eq same
  | phrases words =>
    cases b with
    | phrases words' =>
      simp only [toList_text_phrases, List.cons_append, List.append_assoc, List.cons.injEq,
        true_and, List.nil_append] at same
      obtain ⟨rfl, ends⟩ := intercalate_append_inj (by decide) (by decide)
        (fun v memberV w memberW {x y c d} delimiterC delimiterD same => by
          obtain ⟨equal, rest⟩ := quotation_append_inj (legibleA.2 v memberV)
            (legibleB.2 w memberW) same
          exact ⟨equal, List.cons.inj rest⟩) legibleA.1 legibleB.1 same
      exact ⟨rfl, ends⟩
    | interval | tags | phrase => simpa [opening] using opening_eq same

end Body

/-- A query: a predicate on a field, the negation of a query, or two queries in a group. -/
inductive Clause where
  | field (key : String) (body : Body)
  | negation (inner : Clause)
  | group (connective : Connective) (left right : Clause)

namespace Clause

def text : Clause → String
  | field key body => "@" ++ key ++ ":" ++ body.text
  | negation inner => "(-" ++ inner.text ++ ")"
  | group connective left right => "(" ++ left.text ++ connective.delimiter ++ right.text ++ ")"

/-- Keys are plain and bodies are legible throughout. -/
def Legible : Clause → Prop
  | field key body => Plain key.toList ∧ body.Legible
  | negation inner => inner.Legible
  | group _ left right => left.Legible ∧ right.Legible

theorem toList_text_field (key : String) (body : Body) : (field key body).text.toList =
    '@' :: (key.toList ++ ':' :: body.text.toList) := by
  simp [text]

theorem toList_text_negation (inner : Clause) : (negation inner).text.toList =
    '(' :: '-' :: (inner.text.toList ++ [')']) := by
  simp [text]

theorem toList_text_group (connective : Connective) (left right : Clause) :
    (group connective left right).text.toList = '(' :: (left.text.toList ++
      (connective.delimiter.toList ++ (right.text.toList ++ [')']))) := by
  simp [text]

theorem toList_delimiter_and : Connective.and.delimiter.toList = [' '] := by decide

theorem toList_delimiter_or : Connective.or.delimiter.toList = bar := by decide

/-- A clause starts with its field or with a parenthesis. -/
theorem exists_toList_text (clause : Clause) :
    ∃ c rest, clause.text.toList = c :: rest ∧ (c = '@' ∨ c = '(') := by
  cases clause with
  | field key body => exact ⟨_, _, toList_text_field key body, .inl rfl⟩
  | negation inner => exact ⟨_, _, toList_text_negation inner, .inr rfl⟩
  | group connective left right =>
    exact ⟨_, _, toList_text_group connective left right, .inr rfl⟩

/-- No clause starts with a character that is neither of the two. -/
theorem text_append_ne_cons {clause : Clause} {x y : List Char} {c : Char} (notField : c ≠ '@')
    (notGroup : c ≠ '(') : clause.text.toList ++ x ≠ c :: y := by
  obtain ⟨d, rest, start, here⟩ := clause.exists_toList_text
  rw [start, List.cons_append]
  intro same
  obtain ⟨rfl, _⟩ := List.cons.inj same
  exact here.elim notField notGroup

/-- A delimiter ends where the second clause of a group starts. -/
theorem delimiter_append_inj {p q : Connective} {right right' : Clause} {x y : List Char}
    (same : p.delimiter.toList ++ (right.text.toList ++ x) =
      q.delimiter.toList ++ (right'.text.toList ++ y)) :
    p = q ∧ right.text.toList ++ x = right'.text.toList ++ y := by
  -- After the space between the operands of a conjunction a clause starts, and no bar.
  cases p with
  | and =>
    cases q with
    | and => exact ⟨rfl, List.append_cancel_left same⟩
    | or =>
      rw [toList_delimiter_and, toList_delimiter_or] at same
      exact absurd (List.cons.inj same).2 (text_append_ne_cons (by decide) (by decide))
  | or =>
    cases q with
    | and =>
      rw [toList_delimiter_and, toList_delimiter_or] at same
      exact absurd (List.cons.inj same).2.symm (text_append_ne_cons (by decide) (by decide))
    | or => exact ⟨rfl, List.append_cancel_left same⟩

/-- A clause and where it ends are determined by the text that begins with it. The induction follows
the first clause; the parenthesis that closes a negation or a group is part of what follows. -/
theorem text_append_inj {a b : Clause} {x y : List Char} (legibleA : a.Legible)
    (legibleB : b.Legible) (same : a.text.toList ++ x = b.text.toList ++ y) : a = b ∧ x = y := by
  induction a generalizing b x y with
  | field key body =>
    cases b with
    | field key' body' =>
      simp only [toList_text_field, List.cons_append, List.append_assoc, List.cons.injEq,
        true_and] at same
      obtain ⟨keys, _, rest⟩ := legibleA.1.append_inj legibleB.1 (by decide) (by decide) same
      obtain ⟨rfl, ends⟩ := Body.text_append_inj legibleA.2 legibleB.2 rest
      cases String.toList_inj.mp keys
      exact ⟨rfl, ends⟩
    | negation | group =>
      simp [toList_text_field, toList_text_negation, toList_text_group] at same
  | negation inner ih =>
    cases b with
    | negation inner' =>
      simp only [toList_text_negation, List.cons_append, List.append_assoc, List.cons.injEq,
        true_and, List.nil_append] at same
      obtain ⟨rfl, closing⟩ := ih (b := inner') legibleA legibleB same
      exact ⟨rfl, (List.cons.inj closing).2⟩
    | field => simp [toList_text_field, toList_text_negation] at same
    | group connective left right =>
      simp only [toList_text_negation, toList_text_group, List.cons_append, List.append_assoc,
        List.cons.injEq, true_and] at same
      exact absurd same.symm (text_append_ne_cons (by decide) (by decide))
  | group connective left right ihLeft ihRight =>
    cases b with
    | group connective' left' right' =>
      simp only [toList_text_group, List.cons_append, List.append_assoc, List.cons.injEq,
        true_and, List.nil_append] at same
      obtain ⟨rfl, delimited⟩ := ihLeft legibleA.1 legibleB.1 same
      obtain ⟨rfl, rest⟩ := delimiter_append_inj delimited
      obtain ⟨rfl, closing⟩ := ihRight legibleA.2 legibleB.2 rest
      exact ⟨rfl, (List.cons.inj closing).2⟩
    | field => simp [toList_text_field, toList_text_group] at same
    | negation inner =>
      simp only [toList_text_negation, toList_text_group, List.cons_append, List.append_assoc,
        List.cons.injEq, true_and] at same
      exact absurd same (text_append_ne_cons (by decide) (by decide))

/-- No two legible clauses share a text. -/
theorem text_inj {a b : Clause} (legibleA : a.Legible) (legibleB : b.Legible)
    (same : a.text = b.text) : a = b :=
  (text_append_inj (x := []) (y := []) legibleA legibleB (by rw [same])).1

/-- No clause, legible or not, is written like the query that every document satisfies. -/
theorem text_ne_matchAll (clause : Clause) : clause.text ≠ matchAll := by
  intro same
  have chars : clause.text.toList = ['(', '*', ')'] := congrArg String.toList same
  cases clause with
  | field key body => simp [toList_text_field] at chars
  | negation inner => simp [toList_text_negation] at chars
  | group connective left right =>
    rw [toList_text_group] at chars
    exact text_append_ne_cons (by decide) (by decide) (List.cons.inj chars).2

end Clause

end FilterQuery.Query
