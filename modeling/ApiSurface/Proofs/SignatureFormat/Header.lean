import ApiSurface.SignatureFormat
import ApiSurface.Proofs.Text.Blank
import Mathlib.Data.List.Basic

/-!
Which lines are read as headers, and of which format.

The start of a header ends in a blank that is no line end. So the line ends go without touching the
start, and as they are blanks themselves, the second trim takes nothing less and nothing more than
if they had stayed. What is left is compared with the versions, and no version has a blank at its
sides.
-/

namespace ApiSurface.SignatureFormat

open Text

/-- The line is a header that names the version, with any blanks around the version. -/
def Announces (line version : String) : Prop :=
  ∃ lead tail : String, IsRun isBlank lead.toList ∧ IsRun isBlank tail.toList ∧
    line = headerStart ++ lead ++ version ++ tail

theorem isBlank_of_isLineEnd (c : Char) (h : isLineEnd c = true) : isBlank c = true := by
  simp only [isLineEnd, Bool.or_eq_true, beq_iff_eq] at h
  rcases h with rfl | rfl <;> decide

theorem endsOutside_headerStart : EndsOutside isLineEnd headerStart.toList := by
  have hlast : headerStart.toList.getLast? = some ' ' := by decide +kernel
  intro c hc
  obtain rfl : ' ' = c := Option.some.inj (hlast.symm.trans hc)
  decide

theorem find?_version_eq_some_iff {f : SignatureFormat} {version : String} :
    all.find? (·.version? == some version) = some f ↔ f.version? = some version := by
  constructor
  · intro h
    have hversion := List.find?_some h
    exact beq_iff_eq.mp hversion
  · intro h
    cases f with
    | v1 => cases h
    | v2 | v3 | v4 =>
      cases h
      decide +kernel

/-- Taking the line ends off leaves the start and shortens the rest only. -/
theorem strip_headerStart (rest : String) :
    headerStart.toList.isPrefixOf? (dropEndWhile isLineEnd (headerStart ++ rest).toList) =
      some (dropEndWhile isLineEnd rest.toList) := by
  rw [List.isPrefixOf?_eq_some_iff_append_eq, String.toList_append,
    dropEndWhile_append endsOutside_headerStart]

theorem ofHeader_of_not_start {line : String} (h : ¬∃ rest, line = headerStart ++ rest) :
    ofHeader line = .ok v1 := by
  have hnone : headerStart.toList.isPrefixOf? (dropEndWhile isLineEnd line.toList) = none := by
    rw [Option.eq_none_iff_forall_ne_some]
    intro kept hkept
    rw [List.isPrefixOf?_eq_some_iff_append_eq] at hkept
    -- A start of the shortened line is one of the whole line.
    obtain ⟨tail, _, hline⟩ := exists_run_dropEndWhile isLineEnd line.toList
    refine h ⟨String.ofList (kept ++ tail), String.toList_inj.mp ?_⟩
    rw [String.toList_append, String.toList_ofList, ← List.append_assoc, hkept, ← hline]
  unfold ofHeader
  rw [hnone]

section Start

variable (rest : String) {f : SignatureFormat} {version : String}

/-- Behind the start, the format is the one whose version is there without the blanks around it. -/
theorem ofHeader_start :
    ofHeader (headerStart ++ rest) =
      (all.find? (·.version? == some (trimmed rest))).elim
        (.error (.unknownFileFormat ("header version '" ++ trimmed rest ++ "'"))) .ok := by
  unfold ofHeader trimmed
  rw [strip_headerStart]
  simp only [trim_dropEndWhile isBlank_of_isLineEnd]
  cases all.find? (·.version? == some (String.ofList (trim rest.toList))) <;> rfl

theorem ofHeader_start_eq_ok_iff :
    ofHeader (headerStart ++ rest) = .ok f ↔ f.version? = some (trimmed rest) := by
  rw [ofHeader_start, ← find?_version_eq_some_iff]
  cases all.find? (·.version? == some (trimmed rest)) <;> simp

theorem ofHeader_start_eq_error_iff {e : Error} :
    ofHeader (headerStart ++ rest) = .error e ↔
      (∀ f : SignatureFormat, f.version? ≠ some (trimmed rest)) ∧
        e = .unknownFileFormat ("header version '" ++ trimmed rest ++ "'") := by
  simp only [ofHeader_start, ne_eq, ← find?_version_eq_some_iff]
  cases all.find? (·.version? == some (trimmed rest)) <;> simp [eq_comm]

theorem outside_version (h : f.version? = some version) :
    StartsOutside isBlank version.toList ∧ EndsOutside isBlank version.toList := by
  cases f with
  | v1 => cases h
  | v2 | v3 | v4 =>
    cases h
    constructor
    · intro c hc
      obtain rfl := Option.some.inj hc
      decide
    · intro c hc
      obtain rfl := Option.some.inj hc
      decide

theorem announces_start_iff (h : f.version? = some version) :
    Announces (headerStart ++ rest) version ↔ trimmed rest = version := by
  obtain ⟨hstarts, hends⟩ := outside_version h
  rw [trimmed, ← String.toList_inj, String.toList_ofList, trim_eq_iff]
  constructor
  · rintro ⟨lead, tail, hlead, htail, hline⟩
    refine ⟨hstarts, hends, lead.toList, tail.toList, hlead, htail, ?_⟩
    have hchars := congrArg String.toList hline
    simp only [String.toList_append, List.append_assoc, List.append_cancel_left_eq] at hchars
    rw [hchars, List.append_assoc]
  · rintro ⟨_, _, lead, tail, hlead, htail, hrest⟩
    refine ⟨String.ofList lead, String.ofList tail, ?_, ?_, String.toList_inj.mp ?_⟩
    · rwa [String.toList_ofList]
    · rwa [String.toList_ofList]
    · simp only [String.toList_append, String.toList_ofList, hrest, List.append_assoc]

end Start

theorem Announces.exists_rest {line version : String} (h : Announces line version) :
    ∃ rest, line = headerStart ++ rest := by
  obtain ⟨lead, tail, _, _, hline⟩ := h
  refine ⟨lead ++ version ++ tail, ?_⟩
  rw [hline, String.append_assoc, String.append_assoc, String.append_assoc]

theorem Announces.ofHeader_eq {line version : String} (h : Announces line version)
    {f : SignatureFormat} (hversion : f.version? = some version) : ofHeader line = .ok f := by
  obtain ⟨rest, rfl⟩ := h.exists_rest
  rw [ofHeader_start_eq_ok_iff, hversion, (announces_start_iff rest hversion).mp h]

/-- What is written as a header announces the version, also with more blanks behind it. -/
theorem announces_header {f : SignatureFormat} {header blanks : String}
    (h : f.header? = some header) (hblanks : IsRun isBlank blanks.toList) :
    ∃ version, f.version? = some version ∧ Announces (header ++ blanks) version := by
  obtain ⟨version, hversion, rfl⟩ := Option.map_eq_some_iff.mp h
  refine ⟨version, hversion, "", "\n" ++ blanks, nofun, ?_, ?_⟩
  · rw [String.toList_append]
    refine List.forall_mem_append.mpr ⟨?_, hblanks⟩
    intro c hc
    obtain rfl := List.mem_singleton.mp hc
    decide
  · rw [String.append_empty, String.append_assoc]

/-- The formats other than the first are read from the headers that name them, the first from the
lines without the start of a header, and all else is an error. What is written as the header of a
format is read as that format. -/
theorem ofHeader_recognizes (line : String) :
    (ofHeader line = .ok v1 ↔ ¬∃ rest, line = headerStart ++ rest) ∧
    (∀ f, f ≠ v1 →
      (ofHeader line = .ok f ↔ ∃ version, f.version? = some version ∧ Announces line version)) ∧
    (∀ e, ofHeader line = .error e ↔
      ∃ rest, line = headerStart ++ rest ∧
        (∀ (f : SignatureFormat) version, f.version? = some version → ¬Announces line version) ∧
        e = .unknownFileFormat ("header version '" ++ trimmed rest ++ "'")) ∧
    ∀ (f : SignatureFormat) header blanks, f.header? = some header →
      IsRun isBlank blanks.toList → ofHeader (header ++ blanks) = .ok f := by
  refine ⟨?_, ?_, ?_, ?_⟩
  · constructor
    · rintro hv1 ⟨rest, rfl⟩
      -- The first format has no version that could be found.
      cases (ofHeader_start_eq_ok_iff rest).mp hv1
    · exact ofHeader_of_not_start
  · intro f hf
    constructor
    · intro hok
      by_cases hstart : ∃ rest, line = headerStart ++ rest
      · obtain ⟨rest, rfl⟩ := hstart
        have hversion := (ofHeader_start_eq_ok_iff rest).mp hok
        exact ⟨_, hversion, (announces_start_iff rest hversion).mpr rfl⟩
      · rw [ofHeader_of_not_start hstart] at hok
        exact absurd (Except.ok.inj hok).symm hf
    · rintro ⟨version, hversion, hline⟩
      exact hline.ofHeader_eq hversion
  · intro e
    constructor
    · intro herror
      by_cases hstart : ∃ rest, line = headerStart ++ rest
      · obtain ⟨rest, rfl⟩ := hstart
        obtain ⟨_, he⟩ := (ofHeader_start_eq_error_iff rest).mp herror
        refine ⟨rest, rfl, ?_, he⟩
        intro f version hversion hline
        cases herror.symm.trans (hline.ofHeader_eq hversion)
      · cases herror.symm.trans (ofHeader_of_not_start hstart)
    · rintro ⟨rest, rfl, hnone, he⟩
      refine (ofHeader_start_eq_error_iff rest).mpr ⟨?_, he⟩
      intro f hversion
      exact hnone f _ hversion ((announces_start_iff rest hversion).mpr rfl)
  · intro f header blanks hheader hblanks
    obtain ⟨version, hversion, hline⟩ := announces_header hheader hblanks
    exact hline.ofHeader_eq hversion

/-- Blanks of several sorts around the version do not matter. A longer version is another one, and
without the blank at its end the start is not there. -/
theorem ofHeader_recognizes_blanks :
    (v3 ≠ v1 ∧ Announces "// Signature format: \t3.0 \u2028\r\n" "3.0" ∧
      ofHeader "// Signature format: \t3.0 \u2028\r\n" = .ok v3) ∧
    (v4.header? = some "// Signature format: 4.0\n" ∧ IsRun isBlank " \u3000\r\n".toList ∧
      ofHeader ("// Signature format: 4.0\n" ++ " \u3000\r\n") = .ok v4) ∧
    (ofHeader "// Signature format: 3.0.1\r\n" =
        .error (.unknownFileFormat "header version '3.0.1'") ∧
      ¬Announces "// Signature format: 3.0.1\r\n" "3.0") ∧
    ofHeader "// Signature format:\r\n" = .ok v1 ∧
    ¬∃ rest, "// Signature format:\r\n" = headerStart ++ rest := by
  obtain ⟨_, hformat, _, hheader⟩ := ofHeader_recognizes "// Signature format: \t3.0 \u2028\r\n"
  have hannounces : Announces "// Signature format: \t3.0 \u2028\r\n" "3.0" := by
    refine ⟨"\t", " \u2028\r\n", ?_, ?_, by decide +kernel⟩
    · exact List.all_eq_true.mp (by decide +kernel)
    · exact List.all_eq_true.mp (by decide +kernel)
  have hv3 := (hformat v3 (by decide)).mpr ⟨"3.0", rfl, hannounces⟩
  have hwritten : v4.header? = some "// Signature format: 4.0\n" := by decide +kernel
  have hblanks : IsRun isBlank " \u3000\r\n".toList :=
    List.all_eq_true.mp (by decide +kernel)
  have hv4 := hheader v4 _ _ hwritten hblanks
  have hlonger : ofHeader "// Signature format: 3.0.1\r\n" =
      .error (.unknownFileFormat "header version '3.0.1'") := by decide +kernel
  obtain ⟨_, _, hunknown, _⟩ := ((ofHeader_recognizes _).2.2.1 _).mp hlonger
  have hv1 : ofHeader "// Signature format:\r\n" = .ok v1 := by decide +kernel
  exact ⟨⟨by decide, hannounces, hv3⟩, ⟨hwritten, hblanks, hv4⟩, ⟨hlonger, hunknown v3 _ rfl⟩, hv1,
    (ofHeader_recognizes _).1.mp hv1⟩

end ApiSurface.SignatureFormat
