import FilterQuery.Cli.Run

/-!
The program. It reads the files that its command names, runs the command, and prints what it gives:
the output on standard output, notes and errors on standard error.
-/

namespace FilterQuery.Program

/-- The number of a system error; some calls give it negated. -/
def errorNumber (code : UInt32) : Nat := min code.toNat (UInt32.size - code.toNat)

def numberedFailure (number : Nat) (details : String) : FileFailure :=
  match number with
  | 2 => .notFound
  | 13 => .system 13 "PermissionDenied" "Permission denied"
  | 20 => .notDirectory
  | 21 => .isDirectory
  | 36 => .nameTooLong
  | _ => .system number "Uncategorized" details

/-- Why the system could not read a file. -/
def fileFailure : IO.Error → FileFailure
  | .noFileOrDirectory _ _ _ => .notFound
  | .permissionDenied _ code details => numberedFailure (errorNumber code) details
  | .inappropriateType _ code details => numberedFailure (errorNumber code) details
  | .invalidArgument _ code details => numberedFailure (errorNumber code) details
  | error => .content "Other" (toString error)

/-- The content of an open file, in one read. -/
def readContent (handle : IO.FS.Handle) : IO (Stream.Read FileFailure) := do
  try
    return .chunk (← handle.readBinToEnd).toList
  catch error =>
    return .failure (fileFailure error)

/-- The file behind a path. -/
def openPath (path : String) : IO (Except FileFailure (List (Stream.Read FileFailure))) := do
  try
    return .ok [← readContent (← IO.FS.Handle.mk path .read)]
  catch error =>
    return .error (fileFailure error)

/-- The files that the command names, as a disk. -/
def readDisk (paths : List String) : IO Disk := do
  let files ← paths.mapM fun path => return (path, ← openPath path)
  return fun path =>
    match files.find? fun entry => entry.1 = path with
    | some entry => entry.2
    | none => .error .notFound

end FilterQuery.Program

open FilterQuery FilterQuery.Cli FilterQuery.Program

/-- Reads the files that the command line names, runs the command on them, and prints its report. -/
def main (arguments : List String) : IO UInt32 := do
  let paths :=
    match Command.ofArguments arguments with
    | .ok command => command.paths
    | .error _ => []
  let report := run (← readDisk paths) arguments
  IO.print report.text
  match report with
  | .success output => output.notes.forM fun note => IO.eprintln ("INFO " ++ note)
  | .usage error => IO.eprintln ("error: " ++ error.message?.getD "invalid command line")
  | .failure fault => IO.eprintln ("Error: " ++ fault.debugText)
  return report.exitCode.toUInt32
