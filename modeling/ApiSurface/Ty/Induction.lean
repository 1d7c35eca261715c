import ApiSurface.Ty.Basic

/-!
Induction over type trees, with the hypothesis for all arguments, bounds and outer types of a node.
-/

namespace ApiSurface

/-- What holds of every node when it holds of its parts holds of every type and every class type. -/
theorem Ty.induct {P : Ty → Prop} {Q : ClassTy → Prop}
    (primitive : ∀ i m k, P (.primitive i m k))
    (array : ∀ i m v c, P c → P (.array i m v c))
    (cls : ∀ c, Q c → P (.cls c))
    (lambda : ∀ s r c, Q c → P (.lambda s r c))
    (var : ∀ v, P (.var v))
    (wildcard : ∀ i m u l, (∀ t ∈ u, P t) → (∀ t ∈ l, P t) → P (.wildcard i m u l))
    (mk : ∀ i m n o as, (∀ c ∈ o, Q c) → (∀ t ∈ as, P t) → Q ⟨i, m, n, o, as⟩) :
    (∀ t, P t) ∧ ∀ c, Q c := by
  have none_bound : ∀ t ∈ (none : Option Ty), P t := by simp
  have some_bound : ∀ t, P t → ∀ u ∈ some t, P u := by
    intro t h u hu
    obtain rfl : t = u := by simpa using hu
    exact h
  have none_outer : ∀ c ∈ (none : Option ClassTy), Q c := by simp
  have some_outer : ∀ c, Q c → ∀ d ∈ some c, Q d := by
    intro c h d hd
    obtain rfl : c = d := by simpa using hd
    exact h
  have nil_args : ∀ t ∈ ([] : List Ty), P t := by simp
  have cons_args : ∀ t ts, P t → (∀ u ∈ ts, P u) → ∀ u ∈ t :: ts, P u := by
    intro t ts h hs u hu
    rcases List.mem_cons.mp hu with rfl | hu
    · exact h
    · exact hs u hu
  exact
    ⟨Ty.rec primitive array cls lambda var wildcard mk none_bound some_bound none_outer some_outer
        nil_args cons_args,
      ClassTy.rec primitive array cls lambda var wildcard mk none_bound some_bound none_outer
        some_outer nil_args cons_args⟩

end ApiSurface
