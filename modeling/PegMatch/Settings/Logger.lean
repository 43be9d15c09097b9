import PegMatch.Failure
import PegMatch.Notice
import PegMatch.Settings.Config
import PegMatch.Settings.Path

set_option autoImplicit false

namespace PegMatch

inductive Handler where
  | stream
  | file (path : Text)
  deriving Repr, DecidableEq

structure Logger where
  handler : Option Handler := none
  level : Datum := .int 0
  deriving Repr

namespace Logger

/-- What a code point is in capitals, where those are ASCII letters; others stay. -/
def capitals (c : Nat) : Text :=
  if 'a' ≤ c && c ≤ 'z' then [c - 32]
  else
    match c with
    | 0xdf => ['S', 'S']
    | 0x131 => ['I']
    | 0x17f => ['S']
    | 0xfb00 => ['F', 'F']
    | 0xfb01 => ['F', 'I']
    | 0xfb02 => ['F', 'L']
    | 0xfb03 => ['F', 'F', 'I']
    | 0xfb04 => ['F', 'F', 'L']
    | 0xfb05 | 0xfb06 => ['S', 'T']
    | c => [c]

def logPath? (c : Config) (env : Path.Environment) : Except Failure (Option Text) :=
  match c.get? (Text.ofString "LOGFILE") with
  | some (.text t) =>
    if t.isEmpty then .ok none
    else
      match Path.expand env ['.'] t with
      | .ok path => .ok (some (Path.normal path))
      | .error e => .error (.file e)
  | some d => if d.holds then .error .badPath else .ok none
  | none => .ok none

def lineFormat : String := "%(levelname)s:%(name)s:%(message)s"

def lineStyles : String :=
  "\x7b'%': (<class 'logging.PercentStyle'>, '%(levelname)s:%(name)s:%(message)s'), " ++
  "'\x7b': (<class 'logging.StrFormatStyle'>, " ++
  "'\x7blevelname\x7d:\x7bname\x7d:\x7bmessage\x7d'), " ++
  "'$': (<class 'logging.StringTemplateStyle'>, " ++
  "'$\x7blevelname\x7d:$\x7bname\x7d:$\x7bmessage\x7d')\x7d"

def levelNamed (name : String) : Except Failure Datum :=
  match Level.ofName? name with
  | some l => .ok (.int l.rank)
  | none =>
    if name = "BASIC_FORMAT" then .error (.badLevelName (Text.quoted (Text.ofString lineFormat)))
    else if name = "_STYLES" then .error (.badLevel (Text.ofString lineStyles))
    else .error .unknownLevel

/-- The level in force: that of debugging if it is asked for, else the one set, by name or
number. -/
def levelOf (c : Config) : Except Failure Datum :=
  let wanted :=
    if (c.get? (Text.ofString "DEBUG")).any Datum.holds then .ofString "DEBUG"
    else (c.get? (Text.ofString "LOGLEVEL")).getD (.ofString "WARNING")
  match wanted with
  | .text t => levelNamed (Text.string (t.flatMap capitals))
  | d => if d.int?.isSome then .ok d else .error (.badLevel d.display)

/-- The handler of a logger that has none: the log file if that can be opened, else the stream. -/
def newHandler {m : Type → Type} [Monad m] (openFile : Text → m (Except FileError Unit))
    (path : Option Text) : m (Except Failure Handler) := do
  match path with
  | none => return .ok .stream
  | some path =>
    match ← openFile path with
    | .ok () => return .ok (.file path)
    | .error .nullByte => return .error (.file .nullByte)
    | .error .unencodable => return .error (.file .unencodable)
    | .error _ => return .ok .stream

/-- Configures a logger. It gets a handler if it has none, which fails for a path that makes no
sense. Then the level is set, which may fail too. -/
def configure {m : Type → Type} [Monad m] (openFile : Text → m (Except FileError Unit))
    (env : Path.Environment) (c : Config) (l : Logger) : m (Logger × Option Failure) := do
  let handler ← match l.handler, logPath? c env with
    | some h, _ => pure (.ok h)
    | none, .error e => pure (.error e)
    | none, .ok path => newHandler openFile path
  match handler with
  | .error e => return (l, some e)
  | .ok handler =>
    match levelOf c with
    | .ok level => return ({ handler := some handler, level := level }, none)
    | .error e => return ({ l with handler := some handler }, some e)

/-- Whether a notice is important enough. A logger without a level passes warnings on. -/
def wants (l : Logger) (n : Notice) : Bool :=
  let rank := l.level.int?.getD 0
  (if rank = 0 then Level.warning.rank else rank) ≤ n.level.rank

end Logger

end PegMatch
