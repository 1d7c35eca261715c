import ApiSurface.Text.Blank
import ApiSurface.Text.Word
import Mathlib.Data.List.TakeWhile

/-!
Where blanks are dropped and what is left.

A list of characters has one longest run at its start, and one at its end, of the characters that
are dropped there. So what is left is known by its place in the list: a run stands before it, and it
does not go on with the run.
-/

namespace ApiSurface.Text

theorem isWord_of_isBlank {c : Char} (h : isBlank c = true) : isWord c = false :=
  within_eq_false_of_apart (by decide +kernel) h

variable {p : Char → Bool} {cs rest : List Char}

/-- There are only characters that satisfy `p`. -/
def IsRun (p : Char → Bool) (cs : List Char) : Prop := ∀ c ∈ cs, p c = true

/-- The first character, if there is one, does not satisfy `p`. -/
def StartsOutside (p : Char → Bool) (cs : List Char) : Prop := ∀ c ∈ cs.head?, p c = false

/-- The last character, if there is one, does not satisfy `p`. -/
def EndsOutside (p : Char → Bool) (cs : List Char) : Prop := ∀ c ∈ cs.getLast?, p c = false

theorem isRun_reverse : IsRun p cs.reverse ↔ IsRun p cs := by
  simp [IsRun]

theorem startsOutside_reverse : StartsOutside p cs.reverse ↔ EndsOutside p cs := by
  rw [StartsOutside, List.head?_reverse, EndsOutside]

theorem dropWhile_eq_iff :
    cs.dropWhile p = rest ↔ StartsOutside p rest ∧ ∃ lead, IsRun p lead ∧ cs = lead ++ rest := by
  constructor
  · rintro rfl
    refine ⟨?_, cs.takeWhile p, fun c => List.mem_takeWhile_imp, ?_⟩
    · intro c hc
      have hnot := List.head?_dropWhile_not p cs
      rw [Option.mem_def.mp hc] at hnot
      simpa using hnot
    · exact List.takeWhile_append_dropWhile.symm
  · rintro ⟨hrest, lead, hlead, rfl⟩
    rw [List.dropWhile_append_of_pos hlead]
    cases rest with
    | nil => rfl
    | cons c rest => exact List.dropWhile_cons_of_neg (by simp [hrest c rfl])

/-- A run and what follows it can be told apart in one way. -/
theorem run_append_inj {lead lead' rest' : List Char} (hlead : IsRun p lead)
    (hlead' : IsRun p lead') (hrest : StartsOutside p rest) (hrest' : StartsOutside p rest')
    (h : lead ++ rest = lead' ++ rest') : lead = lead' ∧ rest = rest' := by
  obtain rfl : rest = rest' := by
    rw [← dropWhile_eq_iff.mpr ⟨hrest, lead, hlead, rfl⟩, h]
    exact dropWhile_eq_iff.mpr ⟨hrest', lead', hlead', rfl⟩
  exact ⟨List.append_cancel_right h, rfl⟩

theorem dropEndWhile_eq_iff {front : List Char} :
    dropEndWhile p cs = front ↔
      EndsOutside p front ∧ ∃ tail, IsRun p tail ∧ cs = front ++ tail := by
  rw [dropEndWhile, List.reverse_eq_iff, dropWhile_eq_iff, startsOutside_reverse]
  refine and_congr_right fun _ => ⟨?_, ?_⟩
  · rintro ⟨lead, hlead, hcs⟩
    refine ⟨lead.reverse, isRun_reverse.mpr hlead, ?_⟩
    rw [← List.reverse_reverse cs, hcs, List.reverse_append, List.reverse_reverse]
  · rintro ⟨tail, htail, rfl⟩
    exact ⟨tail.reverse, isRun_reverse.mpr htail, List.reverse_append⟩

/-- What is dropped at the end is a run. -/
theorem exists_run_dropEndWhile (p : Char → Bool) (cs : List Char) :
    ∃ tail, IsRun p tail ∧ cs = dropEndWhile p cs ++ tail :=
  (dropEndWhile_eq_iff.mp rfl).2

/-- Dropping at the end stops before a part that does not end in such characters. -/
theorem dropEndWhile_append {front : List Char} (h : EndsOutside p front) :
    dropEndWhile p (front ++ rest) = front ++ dropEndWhile p rest := by
  obtain ⟨hends, tail, htail, hrest⟩ :=
    dropEndWhile_eq_iff.mp (rfl : dropEndWhile p rest = dropEndWhile p rest)
  refine dropEndWhile_eq_iff.mpr ⟨?_, tail, htail, ?_⟩
  · intro c hc
    rw [List.getLast?_append, Option.mem_def, Option.or_eq_some_iff] at hc
    rcases hc with hc | ⟨_, hc⟩
    · exact hends c hc
    · exact h c hc
  · rw [List.append_assoc, ← hrest]

/-- The second text is the first without the blanks on both sides. -/
structure Trims (cs core : List Char) : Prop where
  starts : StartsOutside isBlank core
  ends : EndsOutside isBlank core
  between : ∃ lead tail, IsRun isBlank lead ∧ IsRun isBlank tail ∧ cs = lead ++ core ++ tail

theorem trim_eq_iff {core : List Char} : trim cs = core ↔ Trims cs core := by
  rw [trim, dropEndWhile_eq_iff]
  constructor
  · rintro ⟨hends, tail, htail, hcs⟩
    obtain ⟨hstarts, lead, hlead, hlead'⟩ := dropWhile_eq_iff.mp hcs
    refine ⟨?_, hends, lead, tail, hlead, htail, hlead'.trans (List.append_assoc ..).symm⟩
    intro c hc
    refine hstarts c ?_
    rw [List.head?_append, Option.mem_def.mp hc]
    rfl
  · rintro ⟨hstarts, hends, lead, tail, hlead, htail, rfl⟩
    refine ⟨hends, ?_⟩
    cases core with
    | nil =>
      -- Nothing is left, so all blanks are dropped from the start.
      refine ⟨[], nofun, dropWhile_eq_iff.mpr ⟨nofun, lead ++ tail, ?_, by simp⟩⟩
      exact List.forall_mem_append.mpr ⟨hlead, htail⟩
    | cons c core =>
      exact ⟨tail, htail, dropWhile_eq_iff.mpr ⟨hstarts, lead, hlead, List.append_assoc ..⟩⟩

/-- Blanks that were dropped at the end before make no difference. -/
theorem trim_dropEndWhile (h : ∀ c, p c = true → isBlank c = true) :
    trim (dropEndWhile p cs) = trim cs := by
  obtain ⟨hstarts, hends, lead, tail, hlead, htail, hkept⟩ :=
    trim_eq_iff.mp (rfl : trim (dropEndWhile p cs) = trim (dropEndWhile p cs))
  obtain ⟨dropped, hdropped, hcs⟩ := exists_run_dropEndWhile p cs
  have hrun : IsRun isBlank (tail ++ dropped) :=
    List.forall_mem_append.mpr ⟨htail, fun c hc => h c (hdropped c hc)⟩
  refine (trim_eq_iff.mpr ⟨hstarts, hends, lead, tail ++ dropped, hlead, hrun, ?_⟩).symm
  calc
    cs = dropEndWhile p cs ++ dropped := hcs
    _ = lead ++ trim (dropEndWhile p cs) ++ tail ++ dropped := by rw [← hkept]
    _ = lead ++ trim (dropEndWhile p cs) ++ (tail ++ dropped) := List.append_assoc ..

end ApiSurface.Text
