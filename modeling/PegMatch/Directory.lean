import PegMatch.Text.Encoding

set_option autoImplicit false

namespace PegMatch

inductive FileError where
  | missing
  | isDirectory
  /-- A file stands in the path where a directory is wanted. -/
  | notDirectory
  /-- A path with half a surrogate pair has no bytes. -/
  | unencodable
  /-- No path holds U+0000. -/
  | nullByte
  /-- The path, or a name in it, is longer than one may be. -/
  | tooLong
  deriving Repr, DecidableEq

def FileError.message : FileError → String
  | .missing => "no such file"
  | .isDirectory => "is a directory"
  | .notDirectory => "not a directory"
  | .unencodable => "surrogates not allowed"
  | .nullByte => "embedded null byte"
  | .tooLong => "file name too long"

namespace Path

def parts : Text → List Text
  | [] => [[]]
  | c :: t =>
    match parts t with
    | p :: ps => if c = '/' then [] :: p :: ps else (c :: p) :: ps
    | [] => [[c]]

def ofParts : List Text → Text
  | [] => []
  | [p] => p
  | p :: ps => p ++ '/'.toNat :: ofParts ps

def here : Text := ['.']

def above : Text := ['.', '.']

def root : Text := ['/']

/-- The place around a place. A place that starts with steps upwards lies outside the directory. -/
def up (place : List Text) : List Text :=
  match place.getLast? with
  | none => [above]
  | some p => if p = above then place ++ [above] else if p = root then place else place.dropLast

def lexical (path : Text) : List Text :=
  let start : List Text := if path.head? = some '/'.toNat then [root] else []
  (parts path).foldl
    (fun place p =>
      if p.isEmpty || p = here then place else if p = above then up place else place ++ [p]) start

/-- The shortest path to the place that a path leads to, judged by the path alone. -/
def normal (path : Text) : Text :=
  match lexical path with
  | [] => here
  | p :: ps => if p = root then '/'.toNat :: ofParts ps else ofParts (p :: ps)

end Path

/-- The files of a directory and of those below it, by their paths. -/
structure Directory where
  files : List (Text × ByteArray) := []

namespace Directory

inductive Entry where
  | missing
  /-- Nothing can stand there, because its name would be too long. -/
  | tooLong
  | directory
  | file (content : ByteArray)

def systemNames : List String :=
  ["bin", "dev", "etc", "home", "lib", "mnt", "opt", "proc", "root", "sbin", "tmp", "usr", "var"]

/-- Whether a place is around the directory, or one that every machine has. -/
def isOuter (place : List Text) : Bool :=
  place.all (· == Path.above) || place == [Path.root] ||
    systemNames.any fun name => place == [Path.root, Text.ofString name]

def nowhere : List Text :=
  [Path.root, Text.ofString "dev", Text.ofString "null"]

def longestName : Nat := 255

def longestPath : Nat := 4095

def exceeds (limit : Nat) (t : Text) : Bool :=
  t.toUtf8.toOption.any fun bytes => limit < bytes.size

def entry (d : Directory) (place : List Text) : Entry :=
  if place = nowhere then .file .empty
  else if isOuter place then .directory
  else if place.getLast?.any (exceeds longestName) then .tooLong
  else
    let path := Path.ofParts place
    match d.files.lookup path with
    | some content => .file content
    | none =>
      if d.files.any fun f =>
        Text.startsWith (path ++ ['/'.toNat]) f.1 then .directory else .missing

/-- Follows the parts of a path. Every place but the last must be a directory. Also tells whether a
slash stands at the end. -/
def follow (d : Directory) (place : List Text) : List Text → Except FileError (List Text × Bool)
  | [] => .ok (place, false)
  | p :: ps =>
    if (p :: ps).all List.isEmpty then .ok (place, true)
    else
      match d.entry place with
      | .missing => .error .missing
      | .tooLong => .error .tooLong
      | .file _ => .error .notDirectory
      | .directory =>
        if p.isEmpty || p = Path.here then d.follow place ps
        else if p = Path.above then d.follow (Path.up place) ps
        else d.follow (place ++ [p]) ps

def checkPath (path : Text) : Except FileError Unit :=
  match path.toUtf8 with
  | .error _ => .error .unencodable
  | .ok bytes =>
    if path.contains 0 then .error .nullByte
    else if longestPath < bytes.size then .error .tooLong
    else .ok ()

/-- The place that a path leads to, and whether the path wants a directory there. -/
def locate (d : Directory) (path : Text) : Except FileError (List Text × Bool) := do
  checkPath path
  match Path.parts path with
  | [[]] => .error .missing
  | [] :: ps => if ps.all List.isEmpty then .ok ([Path.root], true) else d.follow [Path.root] ps
  | ps => d.follow [] ps

def read (d : Directory) (path : Text) : Except FileError ByteArray := do
  let (place, slash) ← d.locate path
  match d.entry place with
  | .missing => .error .missing
  | .tooLong => .error .tooLong
  | .directory => .error .isDirectory
  | .file content => if slash then .error .notDirectory else .ok content

def put (path : Text) (content : ByteArray) : List (Text × ByteArray) → List (Text × ByteArray)
  | [] => [(path, content)]
  | f :: rest => if f.1 = path then (path, content) :: rest else f :: put path content rest

def modify (d : Directory) (path : Text) (f : ByteArray → ByteArray) :
    Except FileError Directory := do
  let (place, slash) ← d.locate path
  if slash then .error .isDirectory
  else if place = nowhere then .ok d
  else
    match d.entry place with
    | .directory => .error .isDirectory
    | .tooLong => .error .tooLong
    | .missing => .ok ⟨put (Path.ofParts place) (f .empty) d.files⟩
    | .file content => .ok ⟨put (Path.ofParts place) (f content) d.files⟩

def write (d : Directory) (path : Text) (content : ByteArray) : Except FileError Directory :=
  d.modify path fun _ => content

def append (d : Directory) (path : Text) (content : ByteArray) : Except FileError Directory :=
  d.modify path fun old => old ++ content

end Directory

end PegMatch
