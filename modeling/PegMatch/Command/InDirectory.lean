import PegMatch.Command.Run

set_option autoImplicit false

namespace PegMatch.Command

def change (f : Directory → Except FileError Directory) :
    StateM Directory (Except FileError Unit) := do
  match f (← get) with
  | .ok d =>
    set d
    return .ok ()
  | .error e => return .error e

/-- The surroundings of a run on a directory. Log lines show the word `TIME` for the time. -/
def directoryHost (input : ByteArray) (environment : Path.Environment) (color : Bool) :
    Host (StateM Directory) where
  read path := do return (← get).read path
  write path content := change fun d => d.write path content
  append path line := change fun d => d.append path line.fileContent.1
  input := return input
  environment name := return environment.lookup name
  time := return Text.ofString "TIME"
  color := color

def runIn (d : Directory) (input : ByteArray) (environment : Path.Environment) (color : Bool)
    (args : List Text) : Outcome × Directory :=
  (run (directoryHost input environment color) args).run d

end PegMatch.Command
