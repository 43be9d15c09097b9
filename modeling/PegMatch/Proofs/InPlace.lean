import PegMatch.Proofs.Files
import PegMatch.Proofs.Origins
import PegMatch.Proofs.Utf8
import PegMatch.Workspace

set_option autoImplicit false

namespace PegMatch

namespace Library

variable {l l' : Library} {source target : String} {subs : List (Given × Text)}
  {content : ByteArray}

def Turns (l : Library) (subs : List (Given × Text)) (content : ByteArray) (out : Text) : Prop :=
  ∃ t l', Text.ofUtf8 content = .ok t ∧ replaceAll t.toArray subs l = .ok out l'

theorem Turns.unique {out out' : Text} (h : Turns l subs content out)
    (h' : Turns l subs content out') : out = out' := by
  obtain ⟨t, l₁, hdecode, hreplace⟩ := h
  obtain ⟨t', l₂, hdecode', hreplace'⟩ := h'
  cases hdecode.symm.trans hdecode'
  cases hreplace.symm.trans hreplace'
  rfl

theorem turns_of_transform {out : Text} (h : transform source target content subs l = .ok out l') :
    Turns l subs content out := by
  unfold transform at h
  cases hdecode : Text.ofUtf8 content with
  | error e =>
    rw [hdecode] at h
    cases h
  | ok t =>
    rw [hdecode] at h
    obtain ⟨out', l₁, hreplace, h⟩ := bind_eq_ok_iff.1 h
    obtain ⟨-, l₂, -, h⟩ := bind_eq_ok_iff.1 h
    cases h
    exact ⟨t, l₁, hdecode, hreplace⟩

theorem transform_of_turns {out : Text} (h : Turns l subs content out) (source target : String) :
    ∃ l', transform source target content subs l = .ok out l' := by
  obtain ⟨t, l', hdecode, hreplace⟩ := h
  refine ⟨{ l' with log := l'.log ++ [.transformed source target] }, ?_⟩
  unfold transform
  rw [hdecode]
  exact bind_eq_ok_iff.2 ⟨out, l', hreplace, rfl⟩

theorem eq_nil_of_turns_empty {out : Text} (h : Turns l subs .empty out) : out = [] := by
  obtain ⟨t, l', hdecode, hreplace⟩ := h
  have hempty : Text.ofUtf8 .empty = .ok [] := Text.ofUtf8_eq_ok_iff.2 rfl
  cases hempty.symm.trans hdecode
  obtain ⟨probes, l₁, -, hreplace⟩ := bind_eq_ok_iff.1 hreplace
  obtain ⟨hout, -⟩ := (result_ofExcept _ _).1 hreplace
  cases hout
  rfl

/-- A code point that cannot be written comes from a template, since what was decoded can be
encoded. -/
theorem mem_template_of_turns {out : Text} (h : Turns l subs content out) {c : Nat} (hc : c ∈ out)
    (hbad : ¬ c.isValidChar) : ∃ s ∈ subs, c ∈ s.2 := by
  obtain ⟨t, l', hdecode, hreplace⟩ := h
  have hvalid := Text.exists_toUtf8_iff.1 ⟨content, Text.ofUtf8_eq_ok_iff.1 hdecode⟩
  rcases mem_of_replaceAll hreplace hc with hc | hc
  · exact absurd (hvalid c (List.mem_toArray.1 hc)) hbad
  · exact hc

end Library

namespace Workspace

open Library (Given Turns)

variable {w w' : Workspace} {path : Text} {subs : List (Given × Text)} {content : ByteArray}

/-- Saving to a file that can be read either writes the whole text, or leaves the file empty and
tells why. -/
theorem save_of_read (h : w.directory.read path = .ok content) (t : Text) :
    (∃ bytes w', t.toUtf8 = .ok bytes ∧ save path t w = .ok ⟨⟩ w' ∧
      (w'.directory.read path = .ok bytes ∨ content = .empty ∧ w' = w)) ∨ ∃ e w', t.toUtf8 = .error
      e ∧ save path t w = .error (.unencodable e) w' ∧ w'.directory.read path = .ok .empty := by
  cases hencode : t.toUtf8 with
  | ok bytes =>
    obtain ⟨d, hwrite, hread⟩ := Directory.write_of_read h bytes
    refine .inl ⟨bytes, { w with directory := d }, rfl, ?_, hread.imp_right fun ⟨hempty, hd⟩ =>
      ⟨hempty, by rw [hd]⟩⟩
    simp only [save, Text.fileContent, hencode, bind, EStateM.bind, get_apply, hwrite]
    rfl
  | error e =>
    obtain ⟨d, hwrite, hread⟩ := Directory.write_of_read h .empty
    refine .inr ⟨e, { w with directory := d }, rfl, ?_, ?_⟩
    · simp only [save, Text.fileContent, hencode, bind, EStateM.bind, get_apply, hwrite]
      rfl
    · rcases hread with hread | ⟨rfl, rfl⟩
      · exact hread
      · exact h

theorem replaceIn_cases (h : w.directory.read path = .ok content) (subs : List (Given × Text)) :
    (∃ e l, replaceIn path subs w = .error e { w with library := l } ∧
      ∀ out, ¬ Turns w.library subs content out) ∨ ∃ out l, Turns w.library subs content out ∧
      replaceIn path subs w = save path out { w with library := l } := by
  cases htransform : Library.transform path.string path.string content subs w.library with
  | error e l =>
    refine .inl ⟨e, l, ?_, fun out hout => ?_⟩
    · simp only [replaceIn, transform, read, perform, bind, EStateM.bind, get_apply, h, ofFile,
        pure, EStateM.pure, EStateM.run, htransform]
      rfl
    · obtain ⟨l', hok⟩ := Library.transform_of_turns hout path.string path.string
      cases htransform.symm.trans hok
  | ok out l =>
    refine .inr ⟨out, l, Library.turns_of_transform htransform, ?_⟩
    simp only [replaceIn, transform, read, perform, bind, EStateM.bind, get_apply, h, ofFile, pure,
      EStateM.pure, EStateM.run, htransform]
    rfl

/-- Replacing in a file ends well and the file then holds what its text has turned into, or it fails
and the file holds what it held. -/
def AllOrNothing (path : Text) (subs : List (Given × Text)) (w : Workspace) (content : ByteArray) :
    Prop :=
  match replaceIn path subs w with
  | .ok _ w' => ∃ out bytes, Turns w.library subs content out ∧ out.toUtf8 = .ok bytes ∧
      w'.directory.read path = .ok bytes
  | .error _ w' => w'.directory.read path = .ok content

/-- The text is replaced, but the result has a code point that has no bytes. -/
def Unwritable (subs : List (Given × Text)) (w : Workspace) (content : ByteArray) : Prop :=
  ∃ out, Turns w.library subs content out ∧ ∃ c ∈ out, ¬ c.isValidChar

theorem emptied_of_unwritable (h : w.directory.read path = .ok content)
    (hbad : Unwritable subs w content) :
    ∃ e w', replaceIn path subs w = .error (.unencodable e) w' ∧
      w'.directory.read path = .ok .empty := by
  obtain ⟨out, hout, c, hc, hinvalid⟩ := hbad
  rcases replaceIn_cases h subs with ⟨e, l, -, hnone⟩ | ⟨out', l, hout', hrun⟩
  · exact absurd hout (hnone out)
  · cases hout.unique hout'
    rcases save_of_read
      (w := { w with library := l }) h out with ⟨bytes, w', hencode, -⟩ | ⟨e, w', -, hsave, hread⟩
    · exact absurd (Text.exists_toUtf8_iff.1 ⟨bytes, hencode⟩ c hc) hinvalid
    · exact ⟨e, w', hrun.trans hsave, hread⟩

theorem allOrNothing_of_not_unwritable (h : w.directory.read path = .ok content)
    (hgood : ¬ Unwritable subs w content) : AllOrNothing path subs w content := by
  unfold AllOrNothing
  rcases replaceIn_cases h subs with ⟨e, l, hrun, -⟩ | ⟨out, l, hout, hrun⟩
  · rw [hrun]
    exact h
  · have hvalid : ∀ c ∈ out, c.isValidChar :=
      fun c hc => by_contra fun hbad => hgood ⟨out, hout, c, hc, hbad⟩
    obtain ⟨bytes, hencode⟩ := Text.exists_toUtf8_iff.2 hvalid
    rcases save_of_read (w := { w with library := l }) h
      out with ⟨bytes', w', hencode', hsave, hread⟩ | ⟨e, w', hfail, -⟩
    · cases hencode.symm.trans hencode'
      rw [hrun, hsave]
      refine ⟨out, bytes, hout, hencode, ?_⟩
      rcases hread with hread | ⟨rfl, rfl⟩
      · exact hread
      · -- The file that takes all holds nothing, and so does the result.
        cases Library.eq_nil_of_turns_empty hout
        cases hencode
        exact h
    · cases hencode.symm.trans hfail

/-- Replacing in a file is all or nothing, but for a result that has no bytes. Such a result takes a
template with half of a surrogate pair, and then the file is empty when the failure is told. -/
theorem in_place_all_or_nothing_iff (h : w.directory.read path = .ok content)
    (subs : List (Given × Text)) :
    (AllOrNothing path subs w content ↔ ¬ Unwritable subs w content) ∧
    (Unwritable subs w content →
      ∃ e w', replaceIn path subs w = .error (.unencodable e) w' ∧
        w'.directory.read path = .ok .empty) ∧
    ((∀ s ∈ subs, ∀ c ∈ s.2, c.isValidChar) → AllOrNothing path subs w content) := by
  refine ⟨⟨fun hall hbad => ?_, allOrNothing_of_not_unwritable h⟩,
    emptied_of_unwritable h, fun hvalid =>
    allOrNothing_of_not_unwritable h ?_⟩
  · obtain ⟨e, w', hrun, hread⟩ := emptied_of_unwritable h hbad
    obtain ⟨out, hout, c, hc, -⟩ := hbad
    rw [AllOrNothing, hrun] at hall
    cases hall.symm.trans hread
    cases Library.eq_nil_of_turns_empty hout
    cases hc
  · rintro ⟨out, hout, c, hc, hbad⟩
    obtain ⟨s, hs, hmem⟩ := Library.mem_template_of_turns hout hc hbad
    exact hbad (hvalid s hs c hmem)

/-- A library with the pattern `'a'`, and a file that holds `a`. -/
def runeFile : Workspace where
  library := (Library.compileAll Library.oneRune { config := .standard }).2
  directory := { files := [(['f'], ⟨#[0x61]⟩)] }

/-- Whether replacing in a file ends well, and what the file holds then. -/
def ending (path : Text) (subs : List (Given × Text)) (w : Workspace) : Bool × Option ByteArray :=
  match replaceIn path subs w with
  | .ok _ w' => (true, (w'.directory.read path).toOption)
  | .error _ w' => (false, (w'.directory.read path).toOption)

theorem held_of_ending {held : Option ByteArray} (hall : AllOrNothing path subs w content)
    (h : ending path subs w = (false, held)) : held = some content := by
  unfold AllOrNothing at hall
  unfold ending at h
  split at h
  · cases h
  · next hrun =>
    rw [hrun] at hall
    cases h
    rw [hall]
    rfl

/-- With `b` in its place the file holds `b`. -/
theorem rune_is_replaced :
    ∃ p ∈ (Library.compileAll Library.oneRune { config := .standard }).1,
      runeFile.directory.read ['f'] = .ok ⟨#[0x61]⟩ ∧
      AllOrNothing ['f'] [(.ok p, ['b'])] runeFile ⟨#[0x61]⟩ ∧
      ending ['f'] [(.ok p, ['b'])] runeFile = (true, some ⟨#[0x62]⟩) := by
  have hending : (Library.compileAll Library.oneRune { config := .standard }).1.map
      (fun p => ending ['f'] [(.ok p, ['b'])] runeFile) = [(true, some ⟨#[0x62]⟩)] := by
    rw [runeFile, Config.standard_eq]
    decide +kernel
  obtain ⟨p, hp, hone⟩ := List.mem_map.1 (hending ▸ List.mem_singleton_self _)
  have hread : runeFile.directory.read ['f'] = .ok ⟨#[0x61]⟩ :=
    Session.eq_ok_of_toOption (by decide +kernel)
  have hvalid : ∀ c ∈ (['b'] : Text), c.isValidChar := by decide
  exact ⟨p, hp, hread, (in_place_all_or_nothing_iff hread _).2.2
    (List.forall_mem_singleton.2 hvalid), hone⟩

/-- With half of a surrogate pair in its place the file is lost. -/
theorem half_pair_empties_file :
    ∃ p ∈ (Library.compileAll Library.oneRune { config := .standard }).1,
      runeFile.directory.read ['f'] = .ok ⟨#[0x61]⟩ ∧
      ending ['f'] [(.ok p, [0xd800])] runeFile = (false, some .empty) ∧
      ¬ AllOrNothing ['f'] [(.ok p, [0xd800])] runeFile ⟨#[0x61]⟩ := by
  have hending : (Library.compileAll Library.oneRune { config := .standard }).1.map
      (fun p => ending ['f'] [(.ok p, [0xd800])] runeFile) = [(false, some .empty)] := by
    rw [runeFile, Config.standard_eq]
    decide +kernel
  obtain ⟨p, hp, hone⟩ := List.mem_map.1 (hending ▸ List.mem_singleton_self _)
  have hread : runeFile.directory.read ['f'] = .ok ⟨#[0x61]⟩ :=
    Session.eq_ok_of_toOption (by decide +kernel)
  refine ⟨p, hp, hread, hone, fun hall => ?_⟩
  have hlost : some ByteArray.empty ≠ some ⟨#[0x61]⟩ := by decide
  exact hlost (held_of_ending hall hone)

end Workspace

end PegMatch
