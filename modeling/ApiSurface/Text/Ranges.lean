/-!
Tables of characters: closed ranges of code points.
-/

namespace ApiSurface.Text

/-- Whether the code point of a character is in one of the ranges. -/
def within (ranges : List (Nat × Nat)) (c : Char) : Bool :=
  ranges.any fun r => r.1 ≤ c.toNat && c.toNat ≤ r.2

/-- Whether no range of one table meets a range of the other. -/
def apart (ranges others : List (Nat × Nat)) : Bool :=
  ranges.all fun r => others.all fun o => o.2.blt r.1 || r.2.blt o.1

theorem within_iff {ranges : List (Nat × Nat)} {c : Char} :
    within ranges c = true ↔ ∃ r ∈ ranges, r.1 ≤ c.toNat ∧ c.toNat ≤ r.2 := by
  simp [within]

theorem within_eq_false_of_apart {ranges others : List (Nat × Nat)} {c : Char}
    (hapart : apart ranges others = true) (h : within ranges c = true) :
    within others c = false := by
  obtain ⟨r, hr, hbounds⟩ := within_iff.mp h
  rw [Bool.eq_false_iff]
  intro hother
  obtain ⟨o, ho, hother⟩ := within_iff.mp hother
  have hsides := List.all_eq_true.mp (List.all_eq_true.mp hapart r hr) o ho
  simp only [Bool.or_eq_true, Nat.blt_eq] at hsides
  omega

end ApiSurface.Text
