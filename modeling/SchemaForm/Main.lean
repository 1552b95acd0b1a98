import SchemaForm.Command.Perform

/-!
# The program

Reads the files that a request names, performs it, and prints or writes what it comes to.
-/

namespace SchemaForm.Program

/-- The reason of a failure, as the system words it. -/
def reason : IO.Error → String
  | .alreadyExists _ code details | .otherError code details | .resourceBusy code details
  | .resourceVanished code details | .unsupportedOperation code details
  | .hardwareFault code details | .unsatisfiedConstraints code details
  | .illegalOperation code details | .protocolError code details | .timeExpired code details
  | .interrupted _ code details | .noFileOrDirectory _ code details
  | .invalidArgument _ code details | .permissionDenied _ code details
  | .resourceExhausted _ code details | .inappropriateType _ code details
  | .noSuchThing _ code details => details ++ " (os error " ++ toString code ++ ")"
  | .unexpectedEof => "unexpected end of file"
  | .userError text => text

/-- What a path leads to. -/
def contentOf (path : String) : IO FileContent := do
  try
    return .bytes (← IO.FS.readBinFile path)
  catch
    | .noFileOrDirectory .. => return .missing
    | e => return .unreadable (reason e)

/-- Carries an outcome out, and gives the exit code. -/
def carryOut : Command.Outcome → IO Nat
  | .print line => do
    IO.println line
    return 0
  | .write path text => do
    try
      IO.FS.writeFile path text
      return 0
    catch e =>
      match Command.writeFailure path (reason e) with
      | .fail message code => IO.eprintln message; return code
      | _ => return 0
  | .fail message code => do
    IO.eprintln message
    return code

/-- Performs the request that words make. -/
def run (words : List String) : IO Nat := do
  let inputs := match Command.parse words with
    | .ok request => request.inputs
    | .error _ => []
  let contents ← inputs.mapM fun path => return (path, ← contentOf path)
  carryOut (Command.run (fun path => (contents.lookup path).getD .missing) words)

end SchemaForm.Program

/-- Runs the program on its arguments. -/
def main (words : List String) : IO UInt32 := do
  return (← SchemaForm.Program.run words).toUInt32
