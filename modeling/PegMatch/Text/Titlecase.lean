import PegMatch.Text.Ranges

set_option autoImplicit false

namespace PegMatch.Rune

def titlecases : List (Nat × Nat) := [
  (0x1c5, 0x1c5), (0x1c8, 0x1c8), (0x1cb, 0x1cb), (0x1f2, 0x1f2), (0x1f88, 0x1f8f),
  (0x1f98, 0x1f9f), (0x1fa8, 0x1faf), (0x1fbc, 0x1fbc), (0x1fcc, 0x1fcc), (0x1ffc, 0x1ffc)]

def isTitlecase (c : Nat) : Bool :=
  inRanges titlecases c

end PegMatch.Rune
