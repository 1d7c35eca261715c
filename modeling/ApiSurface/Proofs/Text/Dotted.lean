import ApiSurface.Text.Dotted
import Mathlib.Data.List.Basic
import Mathlib.Data.List.TakeWhile

/-!
Dotted names as concatenations: a name lies inside another exactly when it is that name, a dot and a
rest. The last segment is that of the rest. It is the one part of a name that has no dot and that is
the whole name or follows a dot at its end.
-/

namespace ApiSurface.Text

theorem afterDot?_eq_some_iff {outer name rest : String} :
    afterDot? outer name = some rest ↔ name = outer ++ "." ++ rest := by
  unfold afterDot?
  rw [Option.map_eq_some_iff]
  simp only [List.isPrefixOf?_eq_some_iff_append_eq]
  constructor
  · rintro ⟨tail, htail, rfl⟩
    apply String.toList_inj.mp
    simp [← htail]
  · intro h
    refine ⟨rest.toList, ?_, String.ofList_toList⟩
    simp [h]

theorem isInside_iff {outer name : String} :
    isInside outer name = true ↔ ∃ rest, rest ≠ "" ∧ name = outer ++ "." ++ rest := by
  unfold isInside
  cases h : afterDot? outer name with
  | none =>
    simp only [Bool.false_eq_true, false_iff, not_exists, not_and]
    intro rest _ hname
    rw [afterDot?_eq_some_iff.mpr hname] at h
    cases h
  | some rest =>
    simp only [decide_eq_true_eq, ne_eq]
    constructor
    · intro hrest
      exact ⟨rest, hrest, afterDot?_eq_some_iff.mp h⟩
    · rintro ⟨rest', hrest', hname⟩
      rw [afterDot?_eq_some_iff.mpr hname] at h
      obtain rfl := Option.some.inj h
      exact hrest'

theorem lastSegment_append_dot (front rest : String) :
    lastSegment (front ++ "." ++ rest) = lastSegment rest := by
  have hreverse : (front ++ "." ++ rest).toList.reverse =
      rest.toList.reverse ++ '.' :: front.toList.reverse := by simp
  have hdot : ('.' :: front.toList.reverse).takeWhile (· ≠ '.') = [] := rfl
  rw [lastSegment, hreverse, List.takeWhile_append, hdot, List.append_nil, lastSegment]
  split_ifs with hall
  · rw [(List.takeWhile_prefix _).eq_of_length hall]
  · rfl

theorem lastSegment_eq_self_iff {name : String} :
    lastSegment name = name ↔ '.' ∉ name.toList := by
  have hchars : lastSegment name = name ↔
      name.toList.reverse.takeWhile (· ≠ '.') = name.toList.reverse := by
    rw [lastSegment, ← String.toList_inj, String.toList_ofList, List.reverse_eq_iff]
  rw [hchars, List.takeWhile_eq_self_iff]
  constructor
  · intro hall hdot
    simpa using hall '.' (List.mem_reverse.mpr hdot)
  · intro hdot c hc
    refine decide_eq_true fun heq => hdot ?_
    rw [← heq]
    exact List.mem_reverse.mp hc

theorem dot_notMem_lastSegment (name : String) : '.' ∉ (lastSegment name).toList := by
  intro hdot
  rw [lastSegment, String.toList_ofList, List.mem_reverse] at hdot
  exact Bool.false_ne_true (List.mem_takeWhile_imp hdot)

theorem lastSegment_lastSegment (name : String) :
    lastSegment (lastSegment name) = lastSegment name :=
  lastSegment_eq_self_iff.mpr (dot_notMem_lastSegment name)

/-- The segment is the whole name or follows a dot at its end, and there is no dot in it. -/
structure IsLastSegment (name segment : String) : Prop where
  noDot : '.' ∉ segment.toList
  ends : name = segment ∨ ∃ front, name = front ++ "." ++ segment

theorem ends_lastSegment (name : String) :
    name = lastSegment name ∨ ∃ front, name = front ++ "." ++ lastSegment name := by
  have hsplit := List.takeWhile_append_dropWhile (p := (· ≠ '.')) (l := name.toList.reverse)
  cases hrest : name.toList.reverse.dropWhile (· ≠ '.') with
  | nil =>
    refine .inl (String.toList_inj.mp ?_)
    rw [hrest, List.append_nil] at hsplit
    rw [lastSegment, String.toList_ofList, hsplit, List.reverse_reverse]
  | cons c front =>
    -- What stops the segment is a dot.
    have hdot : c = '.' := by
      have hnot := List.head?_dropWhile_not (· ≠ '.') name.toList.reverse
      rw [hrest] at hnot
      simpa using hnot
    refine .inr ⟨String.ofList front.reverse, String.toList_inj.mp ?_⟩
    rw [hrest, hdot] at hsplit
    have hname := congrArg List.reverse hsplit
    rw [List.reverse_reverse] at hname
    rw [← hname]
    simp [lastSegment]

theorem isLastSegment_iff {name segment : String} :
    IsLastSegment name segment ↔ segment = lastSegment name := by
  constructor
  · rintro ⟨hdot, rfl | ⟨front, rfl⟩⟩
    · exact (lastSegment_eq_self_iff.mpr hdot).symm
    · rw [lastSegment_append_dot, lastSegment_eq_self_iff.mpr hdot]
  · rintro rfl
    exact ⟨dot_notMem_lastSegment name, ends_lastSegment name⟩

end ApiSurface.Text
