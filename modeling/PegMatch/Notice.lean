import PegMatch.Text.Position

set_option autoImplicit false

namespace PegMatch

inductive Level where
  | unset | debug | info | warning | error | critical
  deriving Repr, DecidableEq

namespace Level

def rank : Level → Int
  | .unset => 0
  | .debug => 10
  | .info => 20
  | .warning => 30
  | .error => 40
  | .critical => 50

def name : Level → String
  | .unset => "NOTSET"
  | .debug => "DEBUG"
  | .info => "INFO"
  | .warning => "WARNING"
  | .error => "ERROR"
  | .critical => "CRITICAL"

def ofName? : String → Option Level
  | "NOTSET" => some .unset
  | "DEBUG" => some .debug
  | "INFO" => some .info
  | "WARNING" | "WARN" => some .warning
  | "ERROR" => some .error
  | "CRITICAL" | "FATAL" => some .critical
  | _ => none

end Level

inductive Notice where
  | inlining (rule : Text)
  | unusedRule (file : String) (place : Position) (rule : Text)
  | transformed (source target : String)
  deriving Repr

namespace Notice

def level : Notice → Level
  | .inlining _ | .transformed .. => .debug
  | .unusedRule .. => .warning

def message : Notice → String
  | .inlining rule => s!"Inlining rule {rule.string}"
  | .unusedRule file place rule =>
    s!"{file}({place.line},{place.column}) unused rule: {rule.string}"
  | .transformed source target => s!"Transformed {source} to {target}"

end Notice

end PegMatch
