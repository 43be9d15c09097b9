import PegMatch.Directory

set_option autoImplicit false

namespace PegMatch.Directory

variable {d e : Directory} {path : Text} {content old : ByteArray} {files : List (Text × ByteArray)}

theorem lookup_put_self (path : Text) (content : ByteArray) (files : List (Text × ByteArray)) :
    (put path content files).lookup path = some content := by
  induction files with
  | nil => simp [put]
  | cons f files ih =>
    rw [put]
    split
    · simp
    · next hne =>
      have hother : (path == f.1) = false := beq_eq_false_iff_ne.2 (Ne.symm hne)
      rw [List.lookup_cons, hother]
      exact ih

theorem lookup_put_of_ne {other : Text} (h : other ≠ path) (content : ByteArray)
    (files : List (Text × ByteArray)) :
    (put path content files).lookup other = files.lookup other := by
  have hother : (other == path) = false := beq_eq_false_iff_ne.2 h
  induction files with
  | nil => simp [put, List.lookup_cons, hother]
  | cons f files ih =>
    obtain ⟨name, held⟩ := f
    rw [put]
    split
    · next hname => simp [List.lookup_cons, (show name = path from hname), hother]
    · simp only [List.lookup_cons, ih]

theorem names_put (h : files.lookup path = some old) (content : ByteArray) :
    (put path content files).map Prod.fst = files.map Prod.fst := by
  induction files with
  | nil => cases h
  | cons f files ih =>
    rw [put]
    split
    · next hf => simp [hf]
    · next hne =>
      have hother : (path == f.1) = false := beq_eq_false_iff_ne.2 (Ne.symm hne)
      rw [List.lookup_cons, hother] at h
      rw [List.map_cons, List.map_cons, ih h]

def Entry.bare : Entry → Entry
  | .file _ => .file .empty
  | x => x

@[simp]
theorem Entry.bare_file (content : ByteArray) : (Entry.file content).bare = .file .empty := rfl

def Alike (d e : Directory) : Prop :=
  ∀ place, (d.entry place).bare = (e.entry place).bare

theorem Alike.follow (h : Alike d e) (place ps : List Text) :
    d.follow place ps = e.follow place ps := by
  induction ps generalizing place with
  | nil => rfl
  | cons p ps ih =>
    have hplace := h place
    rw [Directory.follow, Directory.follow]
    cases hd : d.entry place <;> cases he : e.entry place <;>
      simp [hd, he, Entry.bare, ih] at hplace ⊢

theorem Alike.locate (h : Alike d e) (path : Text) : d.locate path = e.locate path := by
  unfold Directory.locate
  simp only [h.follow]

theorem alike_put (h : d.files.lookup path = some old) (content : ByteArray) :
    Alike ⟨put path content d.files⟩ d := by
  intro place
  have hany (start : Text) : (put path content d.files).any (fun f => Text.startsWith start f.1) =
      d.files.any fun f => Text.startsWith start f.1 := by
    have hnames := congrArg (List.any · (Text.startsWith start ·)) (names_put h content)
    simpa only [List.any_map, Function.comp_def] using hnames
  simp only [entry, hany]
  by_cases hpath : Path.ofParts place = path
  · rw [hpath, lookup_put_self, h]
    simp only [apply_ite Entry.bare, Entry.bare_file]
  · rw [lookup_put_of_ne hpath]

theorem read_eq_ok_iff :
    d.read path = .ok content ↔ ∃ place, d.locate path = .ok (place, false) ∧
      d.entry place = .file content := by
  cases hlocate : d.locate path with
  | error e => simp [read, hlocate, bind, Except.bind]
  | ok r =>
    obtain ⟨place, slash⟩ := r
    cases hentry : d.entry place <;> cases slash <;> simp [read, hlocate, hentry, bind, Except.bind]

theorem lookup_of_entry {place : List Text} (h : d.entry place = .file content) :
    place = nowhere ∧ content = .empty ∨ place ≠ nowhere ∧
      d.files.lookup (Path.ofParts place) = some content := by
  unfold entry at h
  split at h
  · next hplace =>
    cases h
    exact .inl ⟨hplace, rfl⟩
  · next hplace =>
    refine .inr ⟨hplace, ?_⟩
    split at h
    · cases h
    split at h
    · cases h
    simp only at h
    split at h
    · next hlookup =>
      cases h
      exact hlookup
    · split at h <;> cases h

theorem entry_put {place : List Text} (h : d.entry place = .file old) (hplace : place ≠ nowhere)
    (content : ByteArray) :
    (⟨put (Path.ofParts place) content d.files⟩ : Directory).entry place = .file content := by
  simp only [entry, if_neg hplace] at h ⊢
  rw [lookup_put_self]
  split at h
  · cases h
  · next houter =>
    split at h
    · cases h
    · next hshort => rw [if_neg houter, if_neg hshort]

/-- What can be read can be written. Then it holds what was written, but for the file that takes
all, which stays empty. -/
theorem write_of_read (h : d.read path = .ok old) (content : ByteArray) :
    ∃ e, d.write path content = .ok e ∧ (e.read path = .ok content ∨ old = .empty ∧ e = d) := by
  obtain ⟨place, hlocate, hentry⟩ := read_eq_ok_iff.1 h
  rcases lookup_of_entry hentry with ⟨hplace, hold⟩ | ⟨hplace, hlookup⟩
  · exact ⟨d, by simp [write, modify, hlocate, hplace, bind, Except.bind], .inr ⟨hold, rfl⟩⟩
  · refine ⟨⟨put (Path.ofParts place) content d.files⟩, ?_, .inl ?_⟩
    · simp [write, modify, hlocate, hentry, hplace, bind, Except.bind]
    · rw [read_eq_ok_iff, (alike_put hlookup content).locate]
      exact ⟨place, hlocate, entry_put hentry hplace content⟩

end PegMatch.Directory
