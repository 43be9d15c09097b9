import PegMatch.Command.Arguments
import PegMatch.Directory
import PegMatch.Highlight.Ansi
import PegMatch.Highlight.Html
import PegMatch.Library
import PegMatch.Settings.File
import PegMatch.Settings.Logger

set_option autoImplicit false

namespace PegMatch.Command

open Arguments (Flag Parsed)

structure Host (m : Type → Type) where
  read : Text → m (Except FileError ByteArray)
  write : Text → ByteArray → m (Except FileError Unit)
  /-- Adds to a file, which is made if it is missing. -/
  append : Text → Text → m (Except FileError Unit)
  input : m ByteArray
  environment : Text → m (Option Text)
  /-- The time as log lines show it. -/
  time : m Text
  /-- Whether colours may be printed. -/
  color : Bool

inductive Stop where
  /-- The arguments make no sense. -/
  | usage
  | help
  /-- The user is told what is wrong. -/
  | error (message : String)
  | failure (f : Failure)
  | noMatch

structure Console where
  library : Library := {}
  logger : Logger := {}
  out : Text := []
  err : Text := []

structure Outcome where
  exit : Nat
  out : Text
  err : Text
  failure : Option Failure := none

variable {m : Type → Type} [Monad m]

abbrev Run (m : Type → Type) := ExceptT Stop (StateT Console m)

def echo (host : Host m) (t : Text) : Run m Unit :=
  modify fun c => { c with out := c.out ++ (if host.color then t else Ansi.strip t) }

def echoLine (host : Host m) (t : Text) : Run m Unit :=
  echo host (t ++ ['\n'.toNat])

def emit (host : Host m) (n : Notice) : Run m Unit := do
  let logger := (← get).logger
  if logger.wants n then
    let line := (← (host.time : m Text)) ++ Text.ofString s!": {n.message}\n"
    match logger.handler with
    | some (.file path) => let _ ← (host.append path line : m _)
    | _ => modify fun c => { c with err := c.err ++ line }

def perform {α : Type} (host : Host m) (onFailure : Failure → Stop) (a : Action α) : Run m α := do
  let noted := (← get).library.log.length
  let (result, library) := match a.run (← get).library with
    | .ok x l => (Except.ok x, l)
    | .error e l => (Except.error e, l)
  modify fun c => { c with library := library }
  for n in library.log.drop noted do
    emit host n
  match result with
  | .ok x => return x
  | .error e => throw (onFailure e)

def onGrammar : Failure → Stop
  | .grammar e => .error e.message
  | f => .failure f

def onBadValue (f : Failure) : Stop :=
  if f.isBadValue then .error f.message else .failure f

def readFile (host : Host m) (path : Text) : Run m ByteArray := do
  match ← (host.read path : m _) with
  | .ok content => return content
  | .error e => throw (.failure (.file e))

def pattern (host : Host m) (p : Parsed) (arg : Text) : Run m Pattern := do
  let config := (← get).library.config
  if p.has "file" then
    let content ← readFile host arg
    perform host onGrammar (Library.compileFile arg content none (some config))
  else perform host onGrammar (Library.compile arg none none (some config))

def subject (host : Host m) (arg : Option Text) : Run m Subject := do
  match arg with
  | some t => return t.toArray
  | none =>
    match Text.ofUtf8 (← (host.input : m ByteArray)) with
    | .ok t => return (Text.unifyLines t).toArray
    | .error e => throw (.failure (.undecodable e))

def probe (host : Host m) (p : Parsed) (arg : Text) (text : Option Text) : Run m Probe := do
  let peg ← pattern host p arg
  let s ← subject host text
  perform host .failure (Library.probe s peg)

def ofFault {α : Type} : Except Fault α → Run m α
  | .ok a => return a
  | .error f => throw (.failure (.fault f))

def printMatch (host : Host m) (found : Option Match) : Run m Unit := do
  match found with
  | none =>
    modify fun c => { c with err := c.err ++ Text.ofString "No match\n" }
    throw .noMatch
  | some f =>
    echoLine host (Text.ofString s!"{f.start}:{f.stop} " ++ f.text)
    for (group, k) in f.groups.zipIdx do
      let shown := match group with
        | some t => Text.quoted t
        | none => Text.ofString "None"
      echoLine host (Text.ofString s!"  ${k + 1} = " ++ shown)

def positional (p : Parsed) (required optional : Nat) : Run m (List Text) :=
  if p.has "help" then throw .help
  else if p.rest.length < required || required + optional < p.rest.length then throw .usage
  else return p.rest

def argument (p : Parsed) (k : Nat) : Run m Text := do
  match p.rest[k]? with
  | some t => return t
  | none => throw .usage

def helpFlag : Flag := { name := Text.ofString "help" }

def fileFlag : Flag := { name := Text.ofString "file", letter := some 'f' }

def groupFlags : List Flag :=
  [{ name := Text.ofString "config", letter := some 'C', arity := 1 },
    { name := Text.ofString "logfile", letter := some 'l', arity := 1 },
    { name := Text.ofString "loglevel", letter := some 'L', arity := 1 },
    { name := Text.ofString "debug", letter := some 'd' }, helpFlag]

def flags? (name : String) : Option (List Flag) :=
  match name with
  | "match" => some [{ name := Text.ofString "full" }, fileFlag, helpFlag]
  | "find" => some [fileFlag, helpFlag]
  | "findall" => some [{ name := Text.ofString "color" }, fileFlag, helpFlag]
  | "replace" => some [{ name := Text.ofString "template", letter := some 't' }, fileFlag, helpFlag]
  | "split" => some [fileFlag, helpFlag]
  | "render" =>
    some [{ name := Text.ofString "tree" }, { name := Text.ofString "color" },
      { name := Text.ofString "html" }, fileFlag, helpFlag]
  | "transform" => some [{ name := Text.ofString "sub", letter := some 's', arity := 2 }, helpFlag]
  | _ => none

def runMatch (host : Host m) (p : Parsed) : Run m Unit := do
  let args ← positional p 1 1
  let peg ← probe host p (args.headD []) args[1]?
  printMatch host (← ofFault (if p.has "full" then peg.fullMatch 0 else peg.matchAt 0))

def runFind (host : Host m) (p : Parsed) : Run m Unit := do
  let args ← positional p 1 1
  let peg ← probe host p (args.headD []) args[1]?
  printMatch host (← ofFault (peg.findMatch 0))

def runFindAll (host : Host m) (p : Parsed) : Run m Unit := do
  let args ← positional p 1 1
  let peg ← probe host p (args.headD []) args[1]?
  let found ← ofFault (peg.allMatches 0)
  if p.has "color" then
    echoLine host (Ansi.markSpans peg.subject Ansi.yellow (found.map fun f => (f.start, f.stop)))
  else
    for f in found do
      echoLine host f.text

def runReplace (host : Host m) (p : Parsed) : Run m Unit := do
  let args ← positional p 2 1
  let peg ← probe host p (args.headD []) args[2]?
  let new := args[1]?.getD []
  let result := if p.has "template" then
      (peg.replaceTemplate new).mapError onBadValue
    else (peg.replace new).mapError .failure
  match result with
  | .ok t => echo host t
  | .error stop => throw stop

def runSplit (host : Host m) (p : Parsed) : Run m Unit := do
  let args ← positional p 1 1
  let peg ← probe host p (args.headD []) args[1]?
  match peg.split with
  | .ok pieces =>
    for t in pieces do
      echoLine host t
  | .error f => throw (.failure f)

def dropLineEnds (t : Text) : Text :=
  (t.reverse.dropWhile (· == '\n'.toNat)).reverse

def runRender (host : Host m) (p : Parsed) : Run m Unit := do
  let args ← positional p 1 0
  let peg ← pattern host p (args.headD [])
  if p.has "tree" then echo host (← perform host .failure (Library.outline peg))
  else
    let text ← perform host .failure (Library.render peg)
    let style := (← get).library.config.style
    if p.has "html" then
      match Html.format text style with
      | .ok t => echoLine host (dropLineEnds t)
      | .error f => throw (.failure f)
    else if p.has "color" then echoLine host (dropLineEnds (Ansi.format text))
    else echoLine host (dropLineEnds text)

def checkSource (host : Host m) (path : Text) : Run m Unit := do
  match ← (host.read path : m _) with
  | .ok _ => return
  | .error .nullByte => throw (.failure (.file .nullByte))
  | .error _ => throw .usage

/-- Stops if a file cannot be the target of a transformation, because it is a directory. -/
def checkTarget (host : Host m) (path : Text) : Run m Unit := do
  match ← (host.read path : m _) with
  | .error .isDirectory => throw .usage
  | .error .nullByte => throw (.failure (.file .nullByte))
  | _ => return

/-- Both files are looked at before the other arguments, and the patterns are compiled before the
source is read. -/
def runTransform (host : Host m) (p : Parsed) : Run m Unit := do
  if p.has "help" then throw .help
  let source ← argument p 0
  checkSource host source
  let target ← argument p 1
  checkTarget host target
  let subs := p.all "sub"
  if subs.isEmpty || 2 < p.rest.length then throw .usage
  let pairs ← subs.mapM fun s => do
    return (Except.ok (← pattern host {} (s.headD [])), s[1]?.getD [])
  let content ← readFile host source
  let out ← perform host onBadValue (Library.transform source.string target.string content pairs)
  let (content, flaw) := out.fileContent
  match ← (host.write target content : m _) with
  | .error e => throw (.failure (.file e))
  | .ok () =>
    match flaw with
    | some e => throw (onBadValue (.unencodable e))
    | none => return

def environmentOf (host : Host m) (path : Text) : Run m Path.Environment := do
  let names := Text.ofString "HOME" :: Path.mentioned path
  let found ← names.mapM fun n => do
    let value ← (host.environment n : m (Option Text))
    return value.map fun v => (n, v)
  return found.filterMap fun e => e

def settingsOf (content : ByteArray) : Run m (List (Text × Datum)) := do
  match Text.ofUtf8 content with
  | .ok t =>
    match ConfigFile.entries t with
    | .ok entries => return entries
    | .error f => throw (.failure f)
  | .error _ => throw (.failure .badSettings)

def setUp (host : Host m) (p : Parsed) : Run m Unit := do
  let file ← match p.last? "config" with
    | none | some [] => pure none
    | some path =>
      let env ← environmentOf host path
      match Path.expand env ['.'] path with
      | .ok path => pure (some (← settingsOf (← readFile host path)))
      | .error e => throw (.failure (.file e))
  let environment ← match ← (host.environment (Text.ofString "TEXTPEGS_CONFIG") : m _) with
    | none | some [] => pure none
    | some path =>
      match ← (host.read (Path.join ['.'] path) : m _) with
      | .ok content => pure (some (← settingsOf content))
      | .error .missing | .error .isDirectory | .error .notDirectory => pure none
      | .error e => throw (.failure (.file e))
  let given (name : String) (key : String) (c : Config) : Config :=
    match p.last? name with
    | none | some [] => c
    | some t => c.set (Text.ofString key) (.text t)
  let config := given "loglevel" "LOGLEVEL" (given "logfile" "LOGFILE"
    (Config.gather {} none file environment))
  let config := if p.has "debug" then config.set (Text.ofString "DEBUG") (.bool true) else config
  modify fun c => { c with library := { c.library with config := config } }
  let path := match config.value "LOGFILE" with
    | .text t => t
    | _ => []
  let env ← environmentOf host path
  let (logger, failure) ←
    (Logger.configure (fun path => host.append path []) env config (← get).logger : m _)
  modify fun c => { c with logger := logger }
  match failure with
  | some f => throw (.failure f)
  | none => return

def checkLogPath (p : Parsed) : Run m Unit :=
  if (p.last? "logfile").any fun path => path.contains 0 then throw (.failure (.file .nullByte))
  else return

/-- Runs the tool: options of the tool itself, a command, and the command's arguments. -/
def tool (host : Host m) (args : List Text) : Run m Unit := do
  match Arguments.parse groupFlags false args with
  | none => throw .usage
  | some group =>
    if group.has "help" then throw .help
    checkLogPath group
    match group.rest with
    | [] => throw .usage
    | name :: rest =>
      match flags? name.string with
      | none => throw .usage
      | some flags =>
        setUp host group
        match Arguments.parse flags true rest with
        | none => throw .usage
        | some p =>
          match name.string with
          | "match" => runMatch host p
          | "find" => runFind host p
          | "findall" => runFindAll host p
          | "replace" => runReplace host p
          | "split" => runSplit host p
          | "render" => runRender host p
          | _ => runTransform host p

def usage : String :=
  String.intercalate "\n"
    ["Usage: pegmatch [-C CONFIG] [-l LOGFILE] [-L LOGLEVEL] [-d] COMMAND",
      "",
      "Commands:",
      "  match [--full] [-f] PATTERN [TEXT]           match at the start of the text",
      "  find [-f] PATTERN [TEXT]                     print the first match in the text",
      "  findall [--color] [-f] PATTERN [TEXT]        print every match in the text",
      "  replace [-t] [-f] PATTERN BY [TEXT]          replace every match in the text",
      "  split [-f] PATTERN [TEXT]                    print the pieces between matches",
      "  render [--tree] [--color] [--html] [-f] PATTERN",
      "                                               print the compiled pattern",
      "  transform -s PATTERN TEMPLATE... INFILE OUTFILE",
      "                                               replace matches in a file",
      ""]

def run (host : Host m) (args : List Text) : m Outcome := do
  let (result, c) ← (tool host args).run.run {}
  match result with
  | .ok () => return { exit := 0, out := c.out, err := c.err }
  | .error .usage => return { exit := 2, out := c.out, err := c.err ++ Text.ofString usage }
  | .error .help => return { exit := 0, out := c.out ++ Text.ofString usage, err := c.err }
  | .error .noMatch => return { exit := 1, out := c.out, err := c.err }
  | .error (.failure f) => return { exit := 1, out := c.out, err := c.err, failure := some f }
  | .error (.error message) =>
    let line := Text.ofString s!"Error: {message}\n"
    return { exit := 1, out := c.out,
             err := c.err ++ (if host.color then line else Ansi.strip line) }

end PegMatch.Command
