/-
The command line. Files are read beforehand and written at the end; all between is a report.
-/

import Stagecraft.CommandLine.Arguments
import Stagecraft.CommandLine.Report

namespace Stagecraft

namespace CommandLine

/-- Why a file could not be read or written. -/
def reason : IO.Error → String
  | .noFileOrDirectory _ code _ => "No such file or directory (os error " ++ toString code ++ ")"
  | .permissionDenied _ code _ => "Permission denied (os error " ++ toString code ++ ")"
  | .inappropriateType _ code details => details ++ " (os error " ++ toString code ++ ")"
  | error => toString error

def readText (path : String) : IO (Except String String) := do
  try
    let text ← IO.FS.readFile path
    return .ok text
  catch error => return .error (reason error)

/-- The files as they are now. -/
def readAll (paths : List String) : IO Files := do
  let texts ← paths.mapM fun path => do
    let text ← readText path
    return (path, text)
  return fun path => (texts.lookup path).getD (.error "not read")

def fail (message : String) : IO UInt32 := do
  let errors ← IO.getStderr
  errors.putStrLn (failureLine message)
  return 1

def finish : Ending → IO UInt32
  | .success => return 0
  | .failure message => fail message
  | .save path content announcement complaint => do
    try
      IO.FS.writeFile path content
    catch error => return ← fail (complaint ++ reason error)
    IO.print announcement
    return 0

def run (arguments : List String) : IO UInt32 := do
  match parse arguments with
  | .error stop =>
    let (text, code) := stop.answer
    IO.print text
    return UInt32.ofNat code
  | .ok invocation =>
    let files ← readAll invocation.reads
    let report := invocation.report files
    IO.print report.output
    finish report.ending

end CommandLine

end Stagecraft

def main (arguments : List String) : IO UInt32 :=
  Stagecraft.CommandLine.run arguments
