import PegMatch.Directory
import PegMatch.Grammar.Mistake
import PegMatch.Pattern.Numbering
import PegMatch.Text.Encoding

set_option autoImplicit false

namespace PegMatch

inductive TemplateError where
  | malformed (template : Text)
  | noSuchCapture (number : Nat) (template : Text)
  | badNumber (e : NumeralError)
  deriving Repr, DecidableEq

def TemplateError.message : TemplateError → String
  | .malformed t => s!"invalid format string: {(Text.quoted t).string}"
  | .noSuchCapture n t => s!"invalid capture index ${n} in {(Text.quoted t).string}"
  | .badNumber e => e.message

inductive Failure where
  | grammar (e : GrammarError)
  | fault (f : Fault)
  | template (e : TemplateError)
  | noSuchGroup (shown : Text)
  /-- A value given where a pattern is wanted. -/
  | notPattern (shown : Text)
  /-- A value given where a pattern is wanted that can be matched as it is. -/
  | notCompiled (shown : Text)
  | notSingle (shown : Text)
  | badReferenceNumber (shown : Text)
  | emptyChoice
  | emptyGrammar
  | unknownKind (name : Text)
  | notRule
  /-- A name that nothing is known by. -/
  | unknownName
  | undecodable (e : DecodeError)
  | unencodable (e : EncodeError)
  | file (e : FileError)
  /-- A file of settings that makes no sense. -/
  | badSettings
  /-- A path is made of something that is no text. -/
  | badPath
  | unknownLevel
  | badLevelName (shown : Text)
  | badLevel (shown : Text)
  | unknownStyle
  deriving Repr

namespace Failure

def message : Failure → String
  | .grammar e => e.message
  | .fault f => f.message
  | .template e => e.message
  | .noSuchGroup shown => s!"no such group: {shown.string}"
  | .notPattern shown => s!"{shown.string} is not a pattern"
  | .notCompiled shown => s!"{shown.string} is not a compiled pattern"
  | .notSingle shown => s!"{shown.string} is not a single character"
  | .badReferenceNumber shown => s!"back reference numbers start at 1, not {shown.string}"
  | .emptyChoice => "choice() needs at least one alternative"
  | .emptyGrammar => "a grammar needs a rule"
  | .unknownKind name => s!"Unknown node kind {(Text.quoted name).string}"
  | .notRule => "not a rule"
  | .unknownName => "unknown name"
  | .undecodable e => e.message
  | .unencodable e => e.message
  | .file e => e.message
  | .badSettings => "settings that make no sense"
  | .badPath => "not a path"
  | .unknownLevel => "unknown log level"
  | .badLevelName shown => s!"Unknown level: {shown.string}"
  | .badLevel shown => s!"Level not an integer or a valid string: {shown.string}"
  | .unknownStyle => "unknown style"

/-- Whether the failure is due to a value given by the user, who is then told what is wrong with
it. -/
def isBadValue : Failure → Bool
  | .template _ | .fault (.undefinedRule _) | .undecodable _ | .unencodable _ => true
  | _ => false

def misuse (m : Misuse) : Failure :=
  .fault (.misuse m)

def ofTrouble : Numbering.Trouble → Failure
  | .tooMany capacity => .grammar { mistake := .tooManyCaptures capacity }
  | .badReference number => .grammar { mistake := .badReferenceNumber number }
  | .fault f => .fault f

end Failure

end PegMatch
