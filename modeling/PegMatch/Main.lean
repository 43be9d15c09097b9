import PegMatch.Command.Run
import Std.Time.Format
import Std.Time.Zoned

set_option autoImplicit false

namespace PegMatch.Command

def fileError : IO.Error → FileError
  | .inappropriateType .. => .isDirectory
  | _ => .missing

def outcome {α : Type} (action : IO α) : IO (Except FileError α) := do
  try
    return .ok (← action)
  catch e => return .error (fileError e)

def timeStamp : IO Text := do
  let now ← Std.Time.PlainDateTime.now
  return Text.ofString (now.format "uuuu-MM-dd HH:mm:ss,SSS")

def machine (color : Bool) : Host IO where
  read path := outcome (IO.FS.readBinFile path.string)
  write path content := outcome (IO.FS.writeBinFile path.string content)
  append path line :=
    outcome (IO.FS.withFile path.string .append fun h => h.write line.fileContent.1)
  input := do (← IO.getStdin).readBinToEnd
  environment name := do return (← IO.getEnv name.string).map Text.ofString
  time := timeStamp
  color := color

end PegMatch.Command

def main (args : List String) : IO UInt32 := do
  let stdout ← IO.getStdout
  let stderr ← IO.getStderr
  let host := PegMatch.Command.machine (← stdout.isTty)
  let outcome ← PegMatch.Command.run host (args.map PegMatch.Text.ofString)
  stdout.putStr outcome.out.string
  stderr.putStr outcome.err.string
  match outcome.failure with
  | some f => stderr.putStrLn f.message
  | none => pure ()
  return outcome.exit.toUInt32
