import PegMatch.Directory
import PegMatch.Library

set_option autoImplicit false

namespace PegMatch

structure Workspace where
  library : Library := {}
  directory : Directory := {}

abbrev FileAction := EStateM Failure Workspace

namespace Workspace

def perform {α : Type} (a : Action α) : FileAction α := do
  let w ← get
  match a.run w.library with
  | .ok x l =>
    set { w with library := l }
    return x
  | .error e l =>
    set { w with library := l }
    throw e

def ofFile {α : Type} : Except FileError α → FileAction α
  | .ok a => return a
  | .error e => throw (.file e)

def read (path : Text) : FileAction ByteArray := do
  ofFile ((← get).directory.read path)

/-- Writes a text to a file. If the text cannot be written, the file is left empty. -/
def save (path t : Text) : FileAction Unit := do
  let w ← get
  let (content, flaw) := t.fileContent
  let directory ← ofFile (w.directory.write path content)
  set { w with directory := directory }
  match flaw with
  | some e => throw (.unencodable e)
  | none => return

def transform (source target : Text) (subs : List (Library.Given × Text)) : FileAction Unit := do
  let content ← read source
  save target (← perform (Library.transform source.string target.string content subs))

def replaceIn (path : Text) (subs : List (Library.Given × Text)) : FileAction Unit :=
  transform path path subs

end Workspace

end PegMatch
