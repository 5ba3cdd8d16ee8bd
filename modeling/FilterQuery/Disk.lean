import FilterQuery.Stream.Read
import FilterQuery.Text.Quoted
import FilterQuery.Text.Utf8

/-!
Files. Behind a path there is a file, or a reason why none can be opened. A file that is open gives
its content read by read, and any of its reads may fail; one that is only interrupted is tried again
before anyone hears of it.
-/
namespace FilterQuery

/-- Why a file cannot be read: the system refuses, with a code, or the content does not fit. -/
inductive FileFailure where
  | system (code : Nat) (kind message : String)
  | content (kind message : String)
  deriving DecidableEq

namespace FileFailure

/-- There is nothing behind the path. -/
def notFound : FileFailure := system 2 "NotFound" "No such file or directory"

/-- The path leads through a file. -/
def notDirectory : FileFailure := system 20 "NotADirectory" "Not a directory"

/-- The path leads to a folder, which can be opened but not read. -/
def isDirectory : FileFailure := system 21 "IsADirectory" "Is a directory"

/-- The path, or a name in it, has too many bytes. -/
def nameTooLong : FileFailure := system 36 "InvalidFilename" "File name too long"

def notText : FileFailure := content "InvalidData" "stream did not contain valid UTF-8"

/-- The path holds a character that no path may hold. -/
def nullInPath : FileFailure :=
  content "InvalidInput" "file name contained an unexpected NUL byte"

def reason : FileFailure → String
  | system code _ message => message ++ " (os error " ++ toString code ++ ")"
  | content _ message => message

def debugText : FileFailure → String
  | system code kind message =>
    "Os \x7b code: " ++ toString code ++ ", kind: " ++ kind ++ ", message: " ++
      Text.quoted message ++ " \x7d"
  | content kind message =>
    "Error \x7b kind: " ++ kind ++ ", message: " ++ Text.quoted message ++ " \x7d"

end FileFailure

/-- The reads of the file behind each path, or why it cannot be opened. -/
abbrev Disk := String → Except FileFailure (List (Stream.Read FileFailure))

/-- The text behind a path. -/
def Disk.readText (disk : Disk) (path : String) : Except FileFailure String := do
  match Text.Utf8.decode? (← Stream.readToEnd (← disk path)) with
  | some text => return String.ofList text
  | none => .error .notText

section

variable {disk : Disk} {path : String} {chunks : List (List UInt8)}

/-- The text behind a path does not depend on how its bytes are cut into reads. -/
theorem Disk.readText_of_chunks (opened : disk path = .ok (chunks.map .chunk)) :
    disk.readText path =
      match Text.Utf8.decode? chunks.flatten with
      | some text => .ok (String.ofList text)
      | none => .error .notText := by
  have content := Stream.readToEnd_append chunks ([] : List (Stream.Read FileFailure))
  simp only [List.append_nil, Stream.readToEnd, Except.map] at content
  simp only [readText, opened, content, bind, Except.bind]
  rfl

/-- A read that fails leaves no text, whatever was read before it. -/
theorem Disk.readText_of_failure {failure : FileFailure} {later : List (Stream.Read FileFailure)}
    (opened : disk path = .ok (chunks.map .chunk ++ .failure failure :: later)) :
    disk.readText path = .error failure := by
  simp only [readText, opened, Stream.readToEnd_append, Stream.readToEnd, bind, Except.bind,
    Except.map]

end

/-- A folder without folders in it: the names of its files, and their bytes. -/
structure Folder where
  files : List (String × List UInt8)

namespace Folder

/-- The longest path that the system takes, in bytes. -/
def maxPathBytes : Nat := 4095

/-- The longest name of a file, in bytes. -/
def maxNameBytes : Nat := 255

/-- Follows the steps of a path, in the folder or outside of it. An empty step and `.` stay where
they are, and `..` leads out of the folder, where nothing can be found. A path without any name is
that of a folder. -/
def follow (folder : Folder) (inside : Bool) :
    List String → Except FileFailure (List (Stream.Read FileFailure))
  | [] => .ok [.failure .isDirectory]
  | step :: rest =>
    if step = "" ∨ step = "." then folder.follow inside rest
    else if step = ".." then folder.follow false rest
    else if maxNameBytes < step.utf8ByteSize then .error .nameTooLong
    else
      match folder.files.find? fun file => inside && file.1 = step with
      | none => .error .notFound
      | some file => if rest = [] then .ok [.chunk file.2] else .error .notDirectory

/-- What a program sees that runs in the folder. -/
def disk (folder : Folder) : Disk := fun path =>
  if path.toList.contains '\x00' then .error .nullInPath
  else if maxPathBytes < path.utf8ByteSize then .error .nameTooLong
  else if path = "" then .error .notFound
  else folder.follow (path.toList.head? ≠ some '/') (path.splitOn "/")

end Folder

end FilterQuery
