import PegMatch.Datum
import PegMatch.Misuse

set_option autoImplicit false

namespace PegMatch

namespace Datum

def unionBits : Int → Int → Int
  | .ofNat m, .ofNat n => .ofNat (m ||| n)
  | .ofNat m, .negSucc n => .negSucc (n ^^^ (n &&& m))
  | .negSucc m, .ofNat n => .negSucc (m ^^^ (m &&& n))
  | .negSucc m, .negSucc n => .negSucc (m &&& n)

def key (d : Datum) : Except Misuse Datum :=
  if d.isKey then .ok d else .error (.unhashable d.sort)

def index (d : Datum) : Except Misuse Int :=
  match d.int? with
  | some i => .ok i
  | none => .error (.notIndex d.sort)

def bound (d : Datum) : Except Misuse Int :=
  match d.int? with
  | some i => .ok i
  | none => .error (.notInteger d.sort)

def limit (operator : String) (d : Datum) : Except Misuse Int :=
  match d.int? with
  | some i => .ok i
  | none => .error (.unordered operator "int" d.sort)

def unaddable (left right : String) : Misuse :=
  if left = "str" ∨ left = "list" then .notJoinable left right else .unsupported "+" left right

def add (d e : Datum) : Except Misuse Datum :=
  match d, e with
  | .text t, .text u => .ok (.text (t ++ u))
  | .list ds, .list es => .ok (.list (ds ++ es))
  | d, e =>
    match d.int?, e.int? with
    | some i, some j => .ok (.int (i + j))
    | _, _ => .error (unaddable d.sort e.sort)

/-- Replaces the values of fields that exist, and adds the others at the end. -/
def override (fields : List (Text × Datum)) : List (Text × Datum) → List (Text × Datum)
  | [] => fields
  | (k, d) :: rest =>
    let replaced := fields.map fun f => if f.1 = k then (k, d) else f
    override (if (fields.lookup k).isSome then replaced else fields ++ [(k, d)]) rest

/-- Either of two truth values, the bits set in either of two numbers, or two records as one. -/
def either (d e : Datum) : Except Misuse Datum :=
  match d, e with
  | .bool a, .bool b => .ok (.bool (a || b))
  | .record fs, .record gs => .ok (.record (override fs gs))
  | d, e =>
    match d.int?, e.int? with
    | some i, some j => .ok (.int (unionBits i j))
    | _, _ => .error (.unsupported "|" d.sort e.sort)

def next (d : Datum) : Except Misuse Int :=
  match d.int? with
  | some i => .ok (i + 1)
  | none => .error (unaddable d.sort "int")

@[simp] theorem limit_int (operator : String) (i : Int) : (Datum.int i).limit operator = .ok i :=
  rfl

@[simp] theorem next_int (i : Int) : (Datum.int i).next = .ok (i + 1) := rfl

end Datum

end PegMatch
