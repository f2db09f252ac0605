import StackLexer.Command.Run

/-! The program. It reads the files that a request can ask for and the standard input if it needs
it, and writes the outcome. -/

namespace StackLexer

def isCode (code expected : UInt32) : Bool := code = expected || code + expected = 0

def readFaultOf : IO.Error → ReadFault
  | .noFileOrDirectory .. | .noSuchThing .. => .notFound
  | .permissionDenied .. => .permissionDenied
  | .inappropriateType _ code _ => if isCode code 20 then .notFolder else .isFolder
  | .invalidArgument _ code _ => if isCode code 36 then .nameTooLong else .unknown
  | _ => .unknown

def readBytes (path : String) : IO (Except ReadFault (List UInt8)) := do
  try
    return .ok (← IO.FS.readBinFile path).toList
  catch e =>
    return .error (readFaultOf e)

def requestPaths : Request → List String
  | .tokenize r =>
    r.grammar :: r.source.toList ++
      (r.settings.toList.flatMap CommandInputs.settingsPaths).map Prod.fst
  | .check grammar | .states grammar => [grammar]
  | .help _ | .version => []

def needsInput : Request → Bool
  | .tokenize r => r.source.isNone
  | _ => false

end StackLexer

open StackLexer in
def main (args : List String) : IO UInt32 := do
  let request := (Request.ofArguments args).toOption
  let files ← ((request.map requestPaths).getD []).mapM (fun path => do
    return (path, ← readBytes path))
  let standard ← if (request.map needsInput).getD false then
      (← IO.getStdin).readBinToEnd
    else pure .empty
  let inputs : CommandInputs :=
    { read := fun path => (files.lookup path).getD (.error .notFound)
      standard := standard.toList }
  let outcome := inputs.run args
  (← IO.getStdout).putStr outcome.out
  (← IO.getStderr).putStr outcome.err
  return UInt32.ofNat outcome.code
