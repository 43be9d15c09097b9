import PegMatch.Fault
import PegMatch.Pattern.Basic
import PegMatch.Text.Escaped

set_option autoImplicit false

namespace PegMatch

/-- A part of a sequence on its way to being written: a node and its text. -/
structure Piece where
  node : Pattern
  text : Text

namespace Piece

def atom (p : Piece) : Text :=
  if p.node.isPrefixed then '('.toNat :: p.text ++ [')'.toNat] else p.text

/-- Whether the last written pieces, newest first, are these very nodes, none of them repeated. -/
def endsWith : List (Piece × Bool) → List Pattern → Bool
  | _, [] => true
  | [], _ :: _ => false
  | (p, again) :: ps, q :: qs => !again && p.node.same q && endsWith ps qs

def isOptionOf (p : Piece) (body : Pattern) : Bool :=
  match p.node with
  | .option _ q => q.same body
  | _ => false

def parts : Pattern → List Pattern
  | .sequence _ items => items
  | p => [p]

/-- Appends a node to the pieces written so far, newest first; a flag marks those that are written
with `+`. A node that stands twice running, the second time as a repetition, was made by `+`. -/
def append (written : List (Piece × Bool)) (p : Piece) : List (Piece × Bool) :=
  match written with
  | (q, again) :: rest =>
    if p.node.isRepeat && q.node.same p.node then (p, true) :: rest
    else (p, false) :: (q, again) :: rest
  | [] => [(p, false)]

/-- Appends a repetition `p` of the node in `body`. -/
def appendStar (written : List (Piece × Bool)) (p body : Piece) : List (Piece × Bool) :=
  let whole := parts body.node
  match written with
  | (q, again) :: rest =>
    if q.node.same p.node then (p, true) :: rest
    else if q.isOptionOf body.node then (q, true) :: rest
    else if endsWith written whole.reverse then (body, true) :: written.drop whole.length
    else (p, false) :: (q, again) :: rest
  | [] => [(p, false)]

def written (p : Piece × Bool) : Text :=
  if p.2 then p.1.atom ++ ['+'.toNat] else p.1.text

end Piece

namespace Pattern

def joined (separator : Text) : List Text → Text
  | [] => []
  | [t] => t
  | t :: ts => t ++ separator ++ joined separator ts

def Comparison.mark : Comparison → Text
  | .exact => []
  | .ignoreCase => ['i']
  | .ignoreStyle => ['y']

mutual

def renderWith (store : Store) (below : Nat → Except Fault Text) : Pattern → Except Fault Text
  | .empty => .ok ['\'', '\'']
  | .any => .ok ['.']
  | .anyRune => .ok ['_']
  | .newline => .ok ['\\', 'n']
  | .startAnchor => .ok ['^']
  | .category c => .ok ('\\' :: Text.ofString c.kind.name)
  | .literal _ how t => .ok (Comparison.mark how ++ Text.asLiteral t)
  | .valued _ _ v => .error (.misuse (.notIterable v.sort))
  | .char _ c => .ok (Text.asLiteral [c])
  | .set _ s sense => .ok (Text.asClass s.ranges sense.isNegated)
  | .call _ r => store.ruleName r
  | .sequence _ items => do
    let pieces ← renderItems store below items []
    .ok ('('.toNat :: joined [' '] (pieces.reverse.map Piece.written) ++ [')'.toNat])
  | .choice _ items => do
    let texts ← renderEach store below items
    .ok ('('.toNat :: joined (Text.ofString " / ") texts ++ [')'.toNat])
  | .star _ p => do .ok ((Piece.mk p (← renderWith store below p)).atom ++ ['*'.toNat])
  | .starChar _ c => .ok (Text.asLiteral [c] ++ ['*'.toNat])
  | .starSet _ s sense => .ok (Text.asClass s.ranges sense.isNegated ++ ['*'.toNat])
  | .starAny => .ok ['.', '*']
  | .option _ p => do .ok ((Piece.mk p (← renderWith store below p)).atom ++ ['?'.toNat])
  | .peek _ p => do .ok ('&' :: (← renderWith store below p))
  | .not _ p => do .ok ('!' :: (← renderWith store below p))
  | .search _ p => do .ok ('@' :: (← renderWith store below p))
  | .capture _ p => do .ok ('{'.toNat :: (← renderWith store below p) ++ ['}'.toNat])
  | .capturedSearch _ p => do .ok ('{' :: '@' :: '}' :: (← renderWith store below p))
  | .backref _ how slot => .ok (Comparison.mark how ++ '$'.toNat :: Text.numeral (slot + 1))
  | .rule _ r => below r
  | .grammar _ start others => do
    let first ← below start.2
    let rest ← others.mapM fun d => below d.2
    .ok (first ++ rest.flatten)

def renderEach (store : Store) (below : Nat → Except Fault Text) :
    List Pattern → Except Fault (List Text)
  | [] => .ok []
  | p :: ps => do
    let t ← renderWith store below p
    .ok (t :: (← renderEach store below ps))

def renderItems (store : Store) (below : Nat → Except Fault Text) :
    List Pattern → List (Piece × Bool) → Except Fault (List (Piece × Bool))
  | [], written => .ok written
  | .star i p :: ps, written => do
    let body := Piece.mk p (← renderWith store below p)
    renderItems store below ps (Piece.appendStar written ⟨.star i p, body.atom ++ ['*'.toNat]⟩ body)
  | p :: ps, written => do
    let t ← renderWith store below p
    renderItems store below ps (Piece.append written ⟨p, t⟩)

end

end Pattern

namespace Store

/-- Writes a rule. More rule nodes inside each other than there are rules are a circle. -/
def renderRule (store : Store) : Nat → Nat → Except Fault Text
  | 0, _ => .error .endless
  | depth + 1, r => do
    let name ← store.ruleName r
    match ← store.body? r with
    | none => .error .bodiless
    | some p =>
      let t ← p.renderWith store (store.renderRule depth)
      .ok (name ++ Text.ofString " <- " ++ t ++ ['\n'.toNat])

def render (store : Store) (p : Pattern) : Except Fault Text :=
  p.renderWith store (store.renderRule store.rules.size)

end Store

end PegMatch
