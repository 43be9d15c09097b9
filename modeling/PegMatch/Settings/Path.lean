import PegMatch.Directory

set_option autoImplicit false

namespace PegMatch.Path

abbrev Environment := List (Text × Text)

theorem length_of_dropPrefix? {p t r : Text} (hp : ¬p = []) (h : Text.dropPrefix? p t = some r) :
    r.length < t.length := by
  have := List.length_pos_iff.mpr hp
  rw [Text.eq_append_of_dropPrefix? h, List.length_append]
  omega

def substitute (old new : Text) (t : Text) : Text :=
  match t with
  | [] => []
  | c :: t =>
    match h : Text.dropPrefix? old (c :: t) with
    | some rest =>
      if hold : old = [] then c :: substitute old new t
      else
        have := length_of_dropPrefix? hold h
        new ++ substitute old new rest
    | none => c :: substitute old new t
termination_by t.length
decreasing_by all_goals (simp only [List.length_cons] at *; omega)

def isNameRune (c : Nat) : Bool :=
  ('a' ≤ c && c ≤ 'z') || ('A' ≤ c && c ≤ 'Z') || ('0' ≤ c && c ≤ '9') || c == '_'

/-- A variable after its dollar sign: a name, or anything in braces. Returns the name, the text that
stands for it, and the rest. -/
def nameAhead? (t : Text) : Option (Text × Text × Text) :=
  match t with
  | '{' :: u =>
    match u.dropWhile (· != '}'.toNat) with
    | _ :: rest =>
      let name := u.takeWhile (· != '}'.toNat)
      some (name, '{'.toNat :: name ++ ['}'.toNat], rest)
    | [] => none
  | t =>
    let name := t.takeWhile isNameRune
    if name.isEmpty then none else some (name, name, t.dropWhile isNameRune)

theorem length_of_nameAhead? {t name shown rest : Text}
    (h : nameAhead? t = some (name, shown, rest)) : rest.length ≤ t.length := by
  unfold nameAhead? at h
  split at h
  · next u =>
    split at h
    · next he =>
      cases h
      have := (List.dropWhile_sublist (l := u) (· != '}'.toNat)).length_le
      rw [he] at this
      simp at this ⊢
      omega
    · cases h
  · next u _ =>
    simp only at h
    split at h
    · cases h
    · cases h
      exact (List.dropWhile_sublist (l := t) isNameRune).length_le

/-- Replaces the variables that the environment knows. What is put in is not looked at again. -/
def expandVariables (env : Environment) (t : Text) : Text :=
  match t with
  | [] => []
  | c :: t =>
    if c = '$' then
      match h : nameAhead? t with
      | some (name, shown, rest) =>
        have := length_of_nameAhead? h
        (env.lookup name).getD ('$' :: shown) ++ expandVariables env rest
      | none => '$' :: expandVariables env t
    else c :: expandVariables env t
termination_by t.length
decreasing_by all_goals (simp only [List.length_cons]; omega)

def mentioned (t : Text) : List Text :=
  match t with
  | [] => []
  | c :: t =>
    if c = '$' then
      match h : nameAhead? t with
      | some (name, _, rest) =>
        have := length_of_nameAhead? h
        name :: mentioned rest
      | none => mentioned t
    else mentioned t
termination_by t.length
decreasing_by all_goals (simp only [List.length_cons]; omega)

def rootHome : Text := Text.ofString "/root"

/-- The home directory of a user; the user of the program has no name here. -/
def homeOf? (env : Environment) (user : Text) : Option Text :=
  if user.isEmpty then some ((env.lookup (Text.ofString "HOME")).getD rootHome)
  else if user = Text.ofString "root" then some rootHome
  else none

/-- A tilde alone, or with the name of a user, stands for a home directory if a slash or the end
follows. No user can have a name with U+0000 in it. -/
def expandHome (env : Environment) (t : Text) : Except FileError Text :=
  match t with
  | '~' :: rest =>
    let user := rest.takeWhile (· != '/'.toNat)
    if user.contains 0 then .error .nullByte
    else
      match homeOf? env user with
      | some dir =>
        let path :=
          (dir.reverse.dropWhile (· == '/'.toNat)).reverse ++ rest.dropWhile (· != '/'.toNat)
        .ok (if path.isEmpty then ['/'] else path)
      | none => .ok t
  | t => .ok t

def join (root path : Text) : Text :=
  if path.head? = some '/'.toNat then path
  else if root.isEmpty || root.getLast? == some '/'.toNat then root ++ path
  else root ++ '/'.toNat :: path

/-- The version that `${PYTHON_VERSION}` stands for. -/
def languageVersion : String := "3.11"

def expand (env : Environment) (root path : Text) : Except FileError Text :=
  let path := substitute (Text.ofString "${PYTHON_VERSION}") (Text.ofString languageVersion) path
  (expandHome env (expandVariables env path)).map (join root)

end PegMatch.Path
