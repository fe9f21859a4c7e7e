import Stacklet.Command

set_option autoImplicit false
set_option relaxedAutoImplicit false

/-!
The program: reads arguments, files and lines, and writes what the commands answer.
-/

namespace Stacklet.Main

def writeNotice : Notice → IO Unit
  | .line text => IO.eprintln text
  | .report _ e => IO.eprintln e.display

def writeTranscript (t : Transcript) : IO Unit := do
  let out ← IO.getStdout
  out.putStr t.output
  out.flush
  t.notices.forM writeNotice

partial def talk (input : IO.FS.Stream) (i : Interpreter) : IO Unit := do
  if ← input.isTty then
    writeTranscript ⟨"PS> ", []⟩
  let line ← input.getLine
  if line.isEmpty then
    writeTranscript ⟨Session.farewell, []⟩
  else
    let reply := Session.feed i (Session.cleanLine line)
    writeTranscript reply.transcript
    unless reply.finished do
      talk input reply.interpreter

/-- The fault that an error of the system at a path stands for. A path that leads through a file
fails when it is opened, and the error names it; a directory fails only when it is read. -/
def faultOf (path : String) : IO.Error → FileFault
  | .noFileOrDirectory .. => .notFound
  | .permissionDenied .. => .notPermitted
  | .inappropriateType (some _) .. => .notDirectory
  | .inappropriateType none .. => .isDirectory
  | _ => .ofPath path

def readFile (path : String) : IO FileContent := do
  try
    return .ok (← IO.FS.readBinFile path)
  catch e =>
    return .error (faultOf path e)

def fileOf : Command → IO FileContent
  | .run path _ => readFile path
  | .dumpProgram path => readFile path
  | .dumpLexemes path => readFile path
  | _ => return .error .notFound

def perform (command : Command) : IO UInt32 := do
  match command with
  | .repl options =>
      writeTranscript ⟨Session.banner, []⟩
      talk (← IO.getStdin) (Interpreter.create options.settings)
      return 0
  | command =>
      let content ← fileOf command
      let report := command.perform (fun _ => content) []
      try
        writeTranscript report.transcript
        return report.code
      catch e =>
        IO.eprintln ("Error: " ++ (RuntimeError.outputFailed (toString e)).display)
        return 1

end Stacklet.Main

def main (arguments : List String) : IO UInt32 := do
  match Stacklet.Command.ofArguments? arguments with
  | some command => Stacklet.Main.perform command
  | none =>
      Stacklet.Main.writeTranscript Stacklet.Command.misused.transcript
      return Stacklet.Command.misused.code
