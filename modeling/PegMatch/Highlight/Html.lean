import PegMatch.Datum
import PegMatch.Failure
import PegMatch.Highlight.Token

set_option autoImplicit false

namespace PegMatch.Html

def escapeRune (c : Nat) : Text :=
  if c = '&' then Text.ofString "&amp;"
  else if c = '<' then Text.ofString "&lt;"
  else if c = '>' then Text.ofString "&gt;"
  else [c]

def className : Highlight.Role → String
  | .text => ""
  | .whitespace => "w"
  | .comment => "c"
  | .function => "nf"
  | .operator => "o"
  | .string => "s"
  | .affix => "sa"
  | .classText => "sc"
  | .escape => "se"
  | .reference => "nv"
  | .keyword => "k"
  | .pseudo => "kp"
  | .punctuation => "p"
  | .number => "m"
  | .name => "n"
  | .error => "err"

def openSpan (cls : String) : Text :=
  if cls.isEmpty then [] else Text.ofString "<span class=\"" ++ Text.ofString cls ++
    Text.ofString "\">"

def closeSpan (cls : String) : Text :=
  if cls.isEmpty then [] else Text.ofString "</span>"

/-- The line being written, with the class of the span that is open at its end. -/
structure Line where
  done : Text := []
  current : Option (Text × String) := none

namespace Line

def add (l : Line) (cls : String) (part : Text) : Line :=
  if part.isEmpty then l
  else
    match l.current with
    | some (t, last) =>
      if last = cls then { l with current := some (t ++ part, last) }
      else { l with current := some (t ++ closeSpan last ++ openSpan cls ++ part, cls) }
    | none => { l with current := some (openSpan cls ++ part, cls) }

def finish (l : Line) : Line :=
  match l.current with
  | some (t, last) => { done := l.done ++ t ++ closeSpan last ++ ['\n'.toNat], current := none }
  | none => { l with done := l.done ++ ['\n'.toNat] }

end Line

def parts : Text → List Text
  | [] => [[]]
  | c :: t =>
    match parts t with
    | p :: ps => if c = '\n' then [] :: p :: ps else (c :: p) :: ps
    | [] => [[c]]

def addPiece (l : Line) (p : Highlight.Token) : Line :=
  let cls := className p.role
  match parts (p.text.flatMap escapeRune) with
  | [] => l
  | first :: rest => rest.foldl (fun l part => l.finish.add cls part) (l.add cls first)

def styles : List String :=
  ["abap", "algol", "algol_nu", "arduino", "autumn", "borland", "bw", "coffee", "colorful",
    "default", "dracula", "emacs", "friendly", "friendly_grayscale", "fruity", "github-dark",
    "gruvbox-dark", "gruvbox-light", "igor", "inkpot", "lightbulb", "lilypond", "lovelace", "manni",
    "material", "monokai", "murphy", "native", "night-owl", "nord", "nord-darker", "one-dark",
    "paraiso-dark", "paraiso-light", "pastie", "perldoc", "rainbow_dash", "rrt", "sas",
    "solarized-dark", "solarized-light", "staroffice", "stata-dark", "stata-light", "tango", "trac",
    "vim", "vs", "xcode", "zenburn"]

/-- Fails for a value that is no style. A list of colours is one too, if it is empty. -/
def checkStyle : Datum → Except Failure Unit
  | .text name => if styles.contains name.string then .ok () else .error .unknownStyle
  | .list [] | .record [] => .ok ()
  | d => .error (.misuse (.notIterable d.sort))

def body (source : Text) : Text :=
  let l := (Highlight.tokens source).foldl addPiece {}
  (if l.current.isSome then l.finish else l).done

/-- A source as a block of HTML. Nothing is written for an empty source, whatever the style. -/
def format (source : Text) (style : Datum) : Except Failure Text := do
  if source.isEmpty then return []
  checkStyle style
  return Text.ofString "<div class=\"highlight\"><pre><span></span>" ++ body source ++
    Text.ofString "</pre></div>\n"

end PegMatch.Html
