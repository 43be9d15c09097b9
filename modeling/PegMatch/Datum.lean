import PegMatch.Text.Numeral
import PegMatch.Text.Quoted

set_option autoImplicit false

namespace PegMatch

inductive Datum where
  | null
  | bool (b : Bool)
  | int (i : Int)
  | text (t : Text)
  | list (items : List Datum)
  | record (fields : List (Text × Datum))
  deriving Repr, Inhabited

namespace Datum

def ofString (s : String) : Datum := .text (Text.ofString s)

def holds : Datum → Bool
  | .null => false
  | .bool b => b
  | .int i => i != 0
  | .text t => !t.isEmpty
  | .list items => !items.isEmpty
  | .record fields => !fields.isEmpty

def joined (parts : List Text) : Text :=
  match parts with
  | [] => []
  | [t] => t
  | t :: ts => t ++ ts.flatMap (Text.ofString ", " ++ ·)

mutual

def display : Datum → Text
  | .null => Text.ofString "None"
  | .bool true => Text.ofString "True"
  | .bool false => Text.ofString "False"
  | .int i => Text.signedNumeral i
  | .text t => Text.quoted t
  | .list items => '['.toNat :: joined (displayEach items) ++ [']'.toNat]
  | .record fields => '{'.toNat :: joined (displayFields fields) ++ ['}'.toNat]

def displayEach : List Datum → List Text
  | [] => []
  | d :: ds => display d :: displayEach ds

def displayFields : List (Text × Datum) → List Text
  | [] => []
  | (k, d) :: fs => (Text.quoted k ++ Text.ofString ": " ++ display d) :: displayFields fs

end

def sort : Datum → String
  | .null => "NoneType"
  | .bool _ => "bool"
  | .int _ => "int"
  | .text _ => "str"
  | .list _ => "list"
  | .record _ => "dict"

def plain : Datum → Text
  | .text t => t
  | d => d.display

/-- The number that a value counts as; true counts as one and false as zero. -/
def int? : Datum → Option Int
  | .int i => some i
  | .bool b => some (if b then 1 else 0)
  | _ => none

mutual

/-- Whether two values are equal. Truth values equal the numbers that they count as. -/
def same : Datum → Datum → Bool
  | .null, .null => true
  | .text t, .text u => t == u
  | .list ds, .list es => sameEach ds es
  | .record fs, .record gs => fs.length == gs.length && sameFields fs gs
  | .int i, e => e.int? == some i
  | .bool b, e => e.int? == some (if b then 1 else 0)
  | _, _ => false

def sameEach : List Datum → List Datum → Bool
  | [], [] => true
  | d :: ds, e :: es => same d e && sameEach ds es
  | _, _ => false

/-- Whether each of the fields is among the others, which may stand in another order. -/
def sameFields : List (Text × Datum) → List (Text × Datum) → Bool
  | [], _ => true
  | (k, d) :: fs, gs => (gs.lookup k).any (same d) && sameFields fs gs

end

def isKey : Datum → Bool
  | .list _ | .record _ => false
  | _ => true

end Datum

end PegMatch
