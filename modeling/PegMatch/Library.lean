import PegMatch.Grammar.Reader
import PegMatch.Pattern.Outline
import PegMatch.Pattern.Render
import PegMatch.Search
import PegMatch.Settings.Config

set_option autoImplicit false

/-! The library as its user meets it: patterns are compiled from text and kept in a cache, and
matched with captures numbered under the configuration in force. -/

namespace PegMatch

structure CacheKey where
  text : Text
  file : Datum
  inline : Datum
  capacity : Datum
  deriving Repr

namespace CacheKey

def same (k l : CacheKey) : Bool :=
  k.text == l.text && k.file.same l.file && k.inline.same l.inline && k.capacity.same l.capacity

def check (k : CacheKey) : Except Misuse Unit := do
  let _ ← k.file.key
  let _ ← k.inline.key
  let _ ← k.capacity.key

end CacheKey

structure Library where
  store : Store := {}
  /-- The oldest entry comes first. -/
  cache : List (CacheKey × Pattern) := []
  config : Config := .standard
  log : List Notice := []
  /-- How deep a match may nest. -/
  depth : Nat := Matching.usualDepth

/-- An operation of the library. What it did to the library before it failed stays done. -/
abbrev Action := EStateM Failure Library

/-- A call of the compiler. What is not given is taken from the configuration. -/
structure Request where
  text : Text
  file : Option Datum := none
  inline : Option Datum := none
  config : Option Config := none

namespace Library

def ofExcept {α ε : Type} (f : ε → Failure) : Except ε α → Action α
  | .ok a => return a
  | .error e => throw (f e)

def freshId : Action Nat := do
  let l ← get
  set { l with store := { l.store with fresh := l.store.fresh + 1 } }
  return l.store.fresh

def notify (notices : List Notice) : Action Unit :=
  modify fun l => { l with log := l.log ++ notices }

def remember (size : Int) (key : CacheKey) (p : Pattern) (cache : List (CacheKey × Pattern)) :
    List (CacheKey × Pattern) :=
  (if size ≤ cache.length then [] else cache) ++ [(key, p)]

def ofReadError : Grammar.ReadError → Failure
  | .mistake e => .grammar e
  | .fault f => .fault f

/-- Compiles pattern text, or finds it in the cache. A mistake leaves store and cache as they were.
The size of the cache matters only for what was not found in it. -/
def compile (text : Text) (file inline : Option Datum) (config : Option Config) :
    Action Pattern := do
  let l ← get
  let config := config.getD l.config
  let key : CacheKey :=
    { text := text
      file := file.getD config.patternFile
      inline := inline.getD config.inlineThreshold
      capacity := config.capacity }
  ofExcept .misuse key.check
  match l.cache.find? fun e => e.1.same key with
  | some e => return e.2
  | none =>
    let src : Grammar.Source :=
      { text := text, file := key.file.plain.shown.string, inline := key.inline,
        capacity := key.capacity }
    match Grammar.parse src l.store with
    | (.ok p, store, notices) =>
      set { l with store := store, log := l.log ++ notices }
      let size ← ofExcept .misuse (config.cacheSize.limit ">=")
      modify fun l => { l with cache := remember size key p l.cache }
      return p
    | (.error e, _, notices) =>
      notify notices
      throw (ofReadError e)

/-- Calls the compiler again and again, and returns the patterns that it returned. A call may fail,
and the others go on. -/
def compileAll : List Request → Library → List Pattern × Library
  | [], l => ([], l)
  | x :: xs, l =>
    match compile x.text x.file x.inline x.config l with
    | .ok p l =>
      let (ps, l) := compileAll xs l
      (p :: ps, l)
    | .error _ l => compileAll xs l

def compileValue (text : Datum) (file inline : Option Datum) (config : Option Config) :
    Action Pattern := do
  match text with
  | .text t => compile t file inline config
  | d =>
    let key ← ofExcept .misuse d.key
    throw (.misuse (.unsized key.sort))

def compileFile (path : Text) (content : ByteArray) (inline : Option Datum)
    (config : Option Config) : Action Pattern := do
  match Text.ofUtf8 content with
  | .ok t => compile (Text.condition t) (some (.text path)) inline config
  | .error e => throw (.undecodable e)

/-- Numbers the captures of a pattern, and returns how many slots it takes. -/
def number (capacity : Datum) (p : Pattern) : Action Nat := do
  let l ← get
  match l.store.number capacity p with
  | .ok (n, store) =>
    set { l with store := store }
    return n
  | .error e => throw (.ofTrouble e)

def render (p : Pattern) : Action Text := do
  ofExcept .fault ((← get).store.render p)

def outline (p : Pattern) : Action Text := do
  ofExcept .fault ((← get).store.outline p)

def probe (subject : Subject) (p : Pattern) : Action Probe := do
  let capacity := (← get).config.capacity
  let count ← number capacity p
  let l ← get
  return {
    subject := subject, pattern := p, store := l.store
    table := ← ofExcept .fault (Captures.make capacity), count := count, depth := l.depth }

def lengthAt (p : Pattern) (subject : Subject) (start : Int) : Action (Option Nat) := do
  let probe ← probe subject p
  ofExcept .fault (probe.matchLength start)

def matching (subject : Subject) (p : Pattern) (i : Int) : Action (Option Match) := do
  let probe ← probe subject p
  ofExcept .fault (probe.matchAt i)

def fullMatching (subject : Subject) (p : Pattern) (i : Int) : Action (Option Match) := do
  let probe ← probe subject p
  ofExcept .fault (probe.fullMatch i)

abbrev Given := Except Failure Pattern

def probeGiven (subject : Subject) (g : Given) : Action Probe := do
  probe subject (← ofExcept (fun e => e) g)

/-- Replaces matches of several patterns, given with their templates, in one pass. -/
def replaceAll (subject : Subject) (subs : List (Given × Text)) : Action Text := do
  let probes ← subs.mapM fun s => do return (← probeGiven subject s.1, s.2)
  ofExcept (fun e => e) (parallelReplace subject probes)

/-- Applies replacements to the content of a file. The names of the files are for the log. -/
def transform (source target : String) (content : ByteArray) (subs : List (Given × Text)) :
    Action Text := do
  match Text.ofUtf8 content with
  | .error e => throw (.undecodable e)
  | .ok t =>
    let out ← replaceAll t.toArray subs
    notify [.transformed source target]
    return out

def runWatched (watch : Kind → Watch) (capacity : Datum) (p : Pattern) (subject : Subject)
    (start : Int) : Action (Option Nat × List Event) := do
  let table ← ofExcept .fault (Captures.make capacity)
  let l ← get
  let scene : Matching.Scene :=
    { subject := subject, store := l.store, origin := start, watch := watch }
  match Matching.run scene table p start l.depth with
  | .hit n s => return (some n, s.events.toList)
  | .miss s => return (none, s.events.toList)
  | .fault f _ => throw (.fault f)

def parseEvents (watch : Kind → Watch) (p : Pattern) (subject : Subject) (start : Int) :
    Action (Option Nat × List Event) := do
  let capacity := (← get).config.capacity
  let _ ← number capacity p
  runWatched watch capacity p subject start

end Library

end PegMatch
