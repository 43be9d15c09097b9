import PegMatch.Datum
import PegMatch.Text.Lowercase
import PegMatch.Text.Titlecase
import PegMatch.Text.Uppercase

set_option autoImplicit false

namespace PegMatch

structure Config where
  entries : List (Text × Datum) := []
  deriving Repr, Inhabited

namespace Config

/-- Whether a name is one of a setting: its cased letters are capitals, and there is one. -/
def isSetting (name : Text) : Bool :=
  name.any Rune.isUppercase && !name.any fun c => Rune.isLowercase c || Rune.isTitlecase c

def get? (c : Config) (name : Text) : Option Datum :=
  c.entries.lookup name

def put (name : Text) (value : Datum) : List (Text × Datum) → List (Text × Datum)
  | [] => [(name, value)]
  | (k, v) :: rest => if k = name then (k, value) :: rest else (k, v) :: put name value rest

def set (c : Config) (name : Text) (value : Datum) : Config :=
  ⟨put name value c.entries⟩

def addAll (c : Config) (entries : List (Text × Datum)) : Config :=
  entries.foldl (fun c e => c.set e.1 e.2) c

def take (c : Config) (entries : List (Text × Datum)) : Config :=
  c.addAll (entries.filter fun e => isSetting e.1)

def defaults : List (Text × Datum) :=
  [(Text.ofString "DEBUG", .bool false), (Text.ofString "LOGLEVEL", .ofString "WARNING"),
    (Text.ofString "LOGFILE", .null), (Text.ofString "MAX_SUBPATTERNS", .int 20),
    (Text.ofString "INLINE_THRESHOLD", .int 5),
    (Text.ofString "PATTERN_FILENAME", .ofString "pattern"), (Text.ofString "CACHE_SIZE", .int 256),
    (Text.ofString "PYGMENTS_STYLE", .ofString "default")]

/-- Gathers a configuration: the base if it holds anything, then the settings of `object` (the
defaults if there is none), of a file, and of the file that the environment names. -/
def gather (base : Config) (object file environment : Option (List (Text × Datum))) : Config :=
  ((base.take (object.getD defaults)).take (file.getD [])).take (environment.getD [])

def standard : Config :=
  gather {} none none none

theorem isSetting_of_capital {name : Text} (h : ∃ c ∈ name, 0x41 ≤ c ∧ c ≤ 0x5a)
    (hall : ∀ c ∈ name, c < 0x61) : isSetting name = true := by
  obtain ⟨c, hc, hfirst, hlast⟩ := h
  have hupper : Rune.isUppercase c = true :=
    List.any_eq_true.2
      ⟨(0x41, 0x5a, 1), by decide, by simp [Rune.inStride, Nat.mod_one, hfirst, hlast]⟩
  have hothers : ∀ c ∈ name, ¬ (Rune.isLowercase c || Rune.isTitlecase c) = true := by
    intro c hc
    have hlower : Rune.isLowercase c = false := Rune.inStrides_of_lt (by decide +kernel) (hall c hc)
    have htitle : Rune.isTitlecase c = false :=
      Rune.inRanges_of_lt (by decide : ∀ r ∈ Rune.titlecases, 0x1c5 ≤ r.1)
        (Nat.lt_trans (hall c hc) (by decide))
    rw [hlower, htitle]
    decide
  simp only [isSetting, List.any_eq_true.2 ⟨c, hc, hupper⟩, List.any_eq_false.2 hothers,
    Bool.not_false, Bool.and_self]

theorem standard_eq : standard = ⟨defaults⟩ := by
  have hnames : ∀ e ∈ defaults, (∃ c ∈ e.1, 0x41 ≤ c ∧ c ≤ 0x5a) ∧ ∀ c ∈ e.1, c < 0x61 := by
    decide +kernel
  have hall : defaults.filter (fun e => isSetting e.1) = defaults :=
    List.filter_eq_self.2 fun e he => isSetting_of_capital (hnames e he).1 (hnames e he).2
  simp only [standard, gather, take, Option.getD_none, hall, List.filter_nil]
  rfl

/-- The value of a setting that every configuration gathered from the defaults has. -/
def value (c : Config) (name : String) : Datum :=
  (c.get? (Text.ofString name)).getD .null

def capacity (c : Config) : Datum := c.value "MAX_SUBPATTERNS"

def inlineThreshold (c : Config) : Datum := c.value "INLINE_THRESHOLD"

def patternFile (c : Config) : Datum := c.value "PATTERN_FILENAME"

def cacheSize (c : Config) : Datum := c.value "CACHE_SIZE"

def style (c : Config) : Datum := c.value "PYGMENTS_STYLE"

end Config

end PegMatch
