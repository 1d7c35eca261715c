import ApiSurface.Codebase.Builder
import ApiSurface.Codebase.Hierarchy
import ApiSurface.Proofs.Ty.Renaming

/-!
Which keys survive the renaming of a type parameter.

A parameter type erases along a chain of first bounds. Every name on that chain is looked up from
the member, also one that an enclosing class has written. So a type parameter of the member can
capture a variable in the bound of a class, and renaming it sets that variable free. The other way
in which a key depends on a name is a wildcard, whose bound is shown as it is written.

`memberKey_rename_iff` says that these are the only two.
-/

namespace ApiSurface

def TypeParameter.rename (x y : String) (q : TypeParameter) : TypeParameter where
  name := renameOne x y q.name
  bounds := q.bounds.map (Ty.rename (renameOne x y) {})

namespace MemberEntry

/-- The member with `y` in place of `x` in all that it declares. -/
def rename (x y : String) (m : MemberEntry) : MemberEntry :=
  { m with
    typeParameters := m.typeParameters.map (TypeParameter.rename x y)
    ty := m.ty.rename (renameOne x y) {}
    parameters := m.parameters.map fun q => { q with ty := q.ty.rename (renameOne x y) {} } }

def declares (m : MemberEntry) (name : String) : Bool :=
  (m.typeParameters.find? (·.name == name)).isSome

end MemberEntry

namespace Tables

variable (t : Tables) (m : MemberEntry) (x y : String)

/-- No type parameter in the scope of the member has this name, and no bound in scope and no
parameter type mentions it. -/
structure Fresh : Prop where
  scope : ∀ q ∈ t.scope m, q.name ≠ y ∧ ∀ b ∈ q.bounds, y ∉ b.variableNames
  parameters : ∀ q ∈ m.parameters, y ∉ q.ty.variableNames

/-- From a type to another over `k` first bounds, as `m` looks them up. The flags tell whether `m`
itself has written the types. A variable `x` that a class has written is not followed. -/
inductive Walks : Bool → Ty → Nat → Bool → Ty → Prop
  | here (own : Bool) (u : Ty) : Walks own u 0 own u
  | bound {own own' : Bool} {u b w : Ty} {v : String} {k : Nat}
      (head : u.headVariable? = some v) (free : own = false → v ≠ x)
      (first : t.firstBound m v = some b) (rest : Walks (m.declares v) b k own' w) :
      Walks own u (k + 1) own' w

/-- What the renaming of `x` to `y` must not change at a type when `n` more bounds can be followed:
a type of the member shows no `x` inside a wildcard, and where a class means another `x`, both lead
to the same erasure. -/
def StableAt (n : Nat) : Bool → Ty → Prop
  | true, u => u.headVariable? = none → u.shownVariable? ≠ some x
  | false, u => u.headVariable? = some x →
    Ty.eraseVar (t.firstBound m) n x = Ty.eraseVar (t.firstBound (m.rename x y)) n x

/-- Every type on the way from `u` over at most `n` first bounds is stable. -/
def Stable (n : Nat) (own : Bool) (u : Ty) : Prop :=
  ∀ k own' w, k ≤ n → t.Walks m x own u k own' w → t.StableAt m x y (n - k) own' w

/-- The type after the renaming, which reaches only what the member has written. -/
def writtenAfter (own : Bool) (u : Ty) : Ty :=
  if own then u.rename (renameOne x y) {} else u

end Tables

theorem TypeParameter.find?_map_rename {x y v : String} {qs : List TypeParameter}
    (hqs : ∀ q ∈ qs, q.name ≠ y) (hv : v ≠ y) :
    (qs.map (rename x y)).find? (·.name == renameOne x y v) =
      (qs.find? (·.name == v)).map (rename x y) := by
  induction qs with
  | nil => rfl
  | cons q qs ih =>
    have hq : ((q.rename x y).name == renameOne x y v) = (q.name == v) := by
      rw [Bool.eq_iff_iff, beq_iff_eq, beq_iff_eq]
      exact renameOne_eq_iff (hqs q List.mem_cons_self) hv
    have hrest := ih fun r hr => hqs r (List.mem_cons_of_mem q hr)
    rw [List.map_cons, List.find?_cons, List.find?_cons, hq]
    cases q.name == v with
    | true => rfl
    | false => exact hrest

namespace Tables

variable {t : Tables} {m : MemberEntry} {x y : String}

theorem Fresh.own (hy : t.Fresh m y) : ∀ q ∈ m.typeParameters, q.name ≠ y := by
  intro q hq
  exact (hy.scope q (List.mem_append_left _ hq)).1

theorem Fresh.firstBound (hy : t.Fresh m y) {v : String} {b : Ty}
    (hb : t.firstBound m v = some b) : y ∉ b.variableNames := by
  obtain ⟨q, hq, hhead⟩ := Option.bind_eq_some_iff.mp hb
  exact (hy.scope q (List.mem_of_find?_eq_some hq)).2 b (List.mem_of_head? hhead)

theorem Fresh.ne (hy : t.Fresh m y) (hx : m.declares x = true) : y ≠ x := by
  rintro rfl
  obtain ⟨q, hq⟩ := Option.isSome_iff_exists.mp hx
  have hname := List.find?_some hq
  exact hy.own q (List.mem_of_find?_eq_some hq) (beq_iff_eq.mp hname)

/-- The renamed member sees under the new names what the member sees under the old ones. -/
theorem firstBound_rename (hx : m.declares x = true) (hy : t.Fresh m y) {v : String}
    (hv : v ≠ y) :
    t.firstBound (m.rename x y) (renameOne x y v) =
      (t.firstBound m v).map (writtenAfter x y (m.declares v)) := by
  rw [firstBound, firstBound, scope, scope, List.find?_append, List.find?_append]
  simp only [MemberEntry.rename]
  rw [TypeParameter.find?_map_rename hy.own hv]
  cases hfind : m.typeParameters.find? (·.name == v) with
  | some q =>
    have hdeclares : m.declares v = true := by rw [MemberEntry.declares, hfind]; rfl
    simp only [Option.map_some, Option.some_or, Option.bind_some, TypeParameter.rename,
      List.head?_map, hdeclares]
    rfl
  | none =>
    have hdeclares : m.declares v = false := by rw [MemberEntry.declares, hfind]; rfl
    have hvx : v ≠ x := by
      rintro rfl
      rw [hdeclares] at hx
      cases hx
    rw [Option.map_none, Option.none_or, Option.none_or, renameOne_of_ne hvx, hdeclares]
    exact Option.map_id'.symm

theorem Stable.stableAt {n : Nat} {own : Bool} {u : Ty} (h : t.Stable m x y n own u) :
    t.StableAt m x y n own u :=
  h 0 own u (Nat.zero_le n) (.here own u)

theorem stable_zero_iff {own : Bool} {u : Ty} :
    t.Stable m x y 0 own u ↔ t.StableAt m x y 0 own u := by
  refine ⟨Stable.stableAt, ?_⟩
  intro h k own' w hk hwalk
  cases hwalk with
  | here => exact h
  | bound head free first rest => omega

/-- A chain that cannot go on is stable if its only type is. -/
theorem stable_iff_of_stuck {n : Nat} {own : Bool} {u : Ty}
    (hstuck : ∀ v b, u.headVariable? = some v → (own = false → v ≠ x) → t.firstBound m v ≠ some b) :
    t.Stable m x y n own u ↔ t.StableAt m x y n own u := by
  refine ⟨Stable.stableAt, ?_⟩
  intro h k own' w hk hwalk
  cases hwalk with
  | here => exact h
  | bound head free first rest => exact absurd first (hstuck _ _ head free)

theorem stable_succ_iff {n : Nat} {own : Bool} {u b : Ty} {v : String}
    (hhead : u.headVariable? = some v) (hfree : own = false → v ≠ x)
    (hb : t.firstBound m v = some b) :
    t.Stable m x y (n + 1) own u ↔
      t.StableAt m x y (n + 1) own u ∧ t.Stable m x y n (m.declares v) b := by
  constructor
  · intro h
    refine ⟨h.stableAt, ?_⟩
    intro k own' w hk hwalk
    have hnext := h (k + 1) own' w (Nat.succ_le_succ hk) (.bound hhead hfree hb hwalk)
    rwa [Nat.add_sub_add_right] at hnext
  · rintro ⟨hat, hrest⟩ k own' w hk hwalk
    cases hwalk with
    | here => exact hat
    | @bound _ _ _ c _ v' k head free first rest =>
      obtain rfl : v = v' := Option.some.inj (hhead.symm.trans head)
      obtain rfl : b = c := Option.some.inj (hb.symm.trans first)
      rw [Nat.add_sub_add_right]
      exact hrest k own' w (Nat.le_of_succ_le_succ hk) rest

theorem stableAt_of_free {n : Nat} {own : Bool} {u : Ty} {v : String}
    (hhead : u.headVariable? = some v) (hfree : own = false → v ≠ x) :
    t.StableAt m x y n own u := by
  cases own with
  | true =>
    intro hnone
    rw [hhead] at hnone
    cases hnone
  | false =>
    intro hx
    exact absurd (Option.some.inj (hhead.symm.trans hx)) (hfree rfl)

/-- Where no variable is at the head, a change can come only from a name that is shown. -/
theorem eraseHead_writtenAfter_of_none (hyx : y ≠ x) {n : Nat} {own : Bool} {u : Ty}
    (hnone : u.headVariable? = none) (f g : String → String) :
    (writtenAfter x y own u).eraseHead f = u.eraseHead g ↔ t.StableAt m x y n own u := by
  rw [Ty.eraseHead_of_headVariable?_eq_none hnone]
  cases own with
  | true =>
    have hafter : (u.rename (renameOne x y) {}).headVariable? = none := by
      rw [Ty.headVariable?_rename, hnone, Option.map_none]
    change (u.rename (renameOne x y) {}).eraseHead f = u.erasedText ↔ _
    rw [Ty.eraseHead_of_headVariable?_eq_none hafter, Ty.erasedText_rename_eq_iff]
    constructor
    · intro h _ hshown
      have hkept := h x hshown
      rw [renameOne_self] at hkept
      exact hyx hkept
    · intro h v hshown
      refine renameOne_of_ne ?_
      rintro rfl
      exact h hnone hshown
  | false =>
    change u.eraseHead f = u.erasedText ↔ _
    refine iff_of_true (Ty.eraseHead_of_headVariable?_eq_none hnone f) ?_
    intro hx
    rw [hnone] at hx
    cases hx

theorem eraseHead_writtenAfter_of_free {own : Bool} {u : Ty} {v : String}
    (hhead : u.headVariable? = some v) (hfree : own = false → v ≠ x) (f g : String → String) :
    (writtenAfter x y own u).eraseHead f = u.eraseHead g ↔ f (renameOne x y v) = g v := by
  rw [Ty.eraseHead_of_headVariable? hhead]
  cases own with
  | true =>
    have hafter : (u.rename (renameOne x y) {}).headVariable? = some (renameOne x y v) := by
      rw [Ty.headVariable?_rename, hhead, Option.map_some]
    change (u.rename (renameOne x y) {}).eraseHead f = _ ↔ _
    rw [Ty.eraseHead_of_headVariable? hafter, Ty.arraySuffix_rename, String.append_left_inj]
  | false =>
    change u.eraseHead f = _ ↔ _
    rw [Ty.eraseHead_of_headVariable? hhead, String.append_left_inj, renameOne_of_ne (hfree rfl)]

section

variable (hx : m.declares x = true) (hy : t.Fresh m y)
include hx hy

theorem eraseHead_writtenAfter_iff {n : Nat} {own : Bool} {u : Ty}
    (hvar : ∀ v, u.headVariable? = some v → (own = false → v ≠ x) →
      (Ty.eraseVar (t.firstBound (m.rename x y)) n (renameOne x y v) =
        Ty.eraseVar (t.firstBound m) n v ↔ t.Stable m x y n own u)) :
    (writtenAfter x y own u).eraseHead (Ty.eraseVar (t.firstBound (m.rename x y)) n) =
        u.eraseHead (Ty.eraseVar (t.firstBound m) n) ↔
      t.Stable m x y n own u := by
  cases hhead : u.headVariable? with
  | none =>
    rw [stable_iff_of_stuck (by simp [hhead])]
    exact eraseHead_writtenAfter_of_none (hy.ne hx) hhead _ _
  | some v =>
    by_cases hfree : own = false → v ≠ x
    · rw [eraseHead_writtenAfter_of_free hhead hfree]
      exact hvar v hhead hfree
    · -- the class has written `x`, which the member has captured
      obtain ⟨rfl, hvx⟩ := Classical.not_imp.mp hfree
      obtain rfl := Classical.not_not.mp hvx
      rw [stable_iff_of_stuck]
      · change u.eraseHead _ = _ ↔ _
        rw [Ty.eraseHead_of_headVariable? hhead, Ty.eraseHead_of_headVariable? hhead,
          String.append_left_inj]
        exact ⟨fun h _ => h.symm, fun h => (h hhead).symm⟩
      · intro w b hw hne
        exact absurd (Option.some.inj (hw.symm.trans hhead)) (hne rfl)

/-- A variable erases under its new name as it did exactly if the chain of bounds behind it is
stable. The induction is on the number of bounds that can be followed. -/
theorem eraseVar_rename_iff {n : Nat} {own : Bool} {u : Ty} {v : String}
    (hhead : u.headVariable? = some v) (hfree : own = false → v ≠ x) (hv : v ≠ y) :
    Ty.eraseVar (t.firstBound (m.rename x y)) n (renameOne x y v) =
      Ty.eraseVar (t.firstBound m) n v ↔ t.Stable m x y n own u := by
  have hat : ∀ n, t.StableAt m x y n own u := fun n => stableAt_of_free hhead hfree
  induction n generalizing own u v with
  | zero => exact iff_of_true rfl (stable_zero_iff.mpr (hat 0))
  | succ n ih =>
    rw [Ty.eraseVar, Ty.eraseVar, firstBound_rename hx hy hv]
    cases hb : t.firstBound m v with
    | none =>
      refine iff_of_true rfl ((stable_iff_of_stuck ?_).mpr (hat (n + 1)))
      intro w b hw _ hfirst
      obtain rfl := Option.some.inj (hhead.symm.trans hw)
      rw [hb] at hfirst
      cases hfirst
    | some b =>
      rw [stable_succ_iff hhead hfree hb, and_iff_right (hat (n + 1))]
      refine eraseHead_writtenAfter_iff hx hy ?_
      intro w hw hwfree
      have hwy : w ≠ y := Ty.ne_of_headVariable? hw (hy.firstBound hb)
      exact ih hw hwfree hwy fun n => stableAt_of_free hw hwfree

theorem erasedParameters_rename_iff :
    t.erasedParameters (m.rename x y) = t.erasedParameters m ↔
      ∀ q ∈ m.parameters, t.Stable m x y Ty.maxBounds true q.ty := by
  have hafter : t.erasedParameters (m.rename x y) = m.parameters.map fun q =>
      (writtenAfter x y true q.ty).erasedWith (t.firstBound (m.rename x y)) := List.map_map
  rw [hafter, erasedParameters, List.map_inj_left]
  refine forall₂_congr fun q hq => ?_
  refine eraseHead_writtenAfter_iff hx hy ?_
  intro v hhead hfree
  have hv : v ≠ y := Ty.ne_of_headVariable? hhead (hy.parameters q hq)
  exact eraseVar_rename_iff hx hy hhead hfree hv

end

/-- The key of a method or constructor survives the renaming of one of its type parameters to a
fresh name exactly if the chains of bounds behind its parameter types are stable. -/
theorem memberKey_rename_iff (t : Tables) (m : MemberEntry) (x y : String)
    (hkind : m.kind = .method ∨ m.kind = .constructor) (hx : m.declares x = true)
    (hy : t.Fresh m y) :
    t.memberKey (m.rename x y) = t.memberKey m ↔
      ∀ q ∈ m.parameters, t.Stable m x y Ty.maxBounds true q.ty := by
  have hsame : (m.rename x y).kind = m.kind := rfl
  rw [← erasedParameters_rename_iff hx hy, memberKey, memberKey, hsame]
  rcases hkind with hkind | hkind
  · rw [hkind]
    simp only [MatchKey.method.injEq]
    exact and_iff_right rfl
  · rw [hkind]
    simp only [MatchKey.constructor.injEq]

/-- A class whose type parameter `T` is bounded by its neighbour `U`, with a method that has a type
parameter `U` of its own. -/
def neighbourBound : Tables :=
  run {}
    [.addPackage { name := "p" },
      .addClass 0 none
        { name := "p.C"
          typeParameters :=
            [{ name := "T", bounds := [.var { name := "U" }] },
              { name := "U", bounds := [.cls ⟨{}, {}, "java.lang.Number", none, []⟩] }] },
      .addMember 0
        { name := "m"
          typeParameters :=
            [{ name := "U", bounds := [.cls ⟨{}, {}, "java.lang.String", none, []⟩] }]
          ty := some (.primitive {} {} .void)
          parameters := [{ ty := .var { name := "T" } }] }]

theorem memberKey_rename_iff_neighbourBound :
    (neighbourBound.memberAt 0).declares "U" = true ∧
      neighbourBound.Fresh (neighbourBound.memberAt 0) "V" ∧
      (neighbourBound.memberKey ((neighbourBound.memberAt 0).rename "U" "V") =
          neighbourBound.keyOf 0 ↔
        ∀ q ∈ (neighbourBound.memberAt 0).parameters,
          neighbourBound.Stable (neighbourBound.memberAt 0) "U" "V" Ty.maxBounds true q.ty) := by
  have hx : (neighbourBound.memberAt 0).declares "U" = true := by decide +kernel
  have hy : neighbourBound.Fresh (neighbourBound.memberAt 0) "V" :=
    ⟨by decide +kernel, by decide +kernel⟩
  exact ⟨hx, hy, memberKey_rename_iff _ _ "U" "V" (.inl (by decide +kernel)) hx hy⟩

/-- The method captures the `U` in the bound of `T`; under a fresh name it no longer does. -/
theorem memberKey_captured :
    (neighbourBound.memberAt 0).declares "U" = true ∧
      neighbourBound.Fresh (neighbourBound.memberAt 0) "V" ∧
      neighbourBound.keyOf 0 = .method "m" ["java.lang.String"] ∧
      neighbourBound.memberKey ((neighbourBound.memberAt 0).rename "U" "V") =
        .method "m" ["java.lang.Number"] :=
  ⟨by decide +kernel, ⟨by decide +kernel, by decide +kernel⟩, by decide +kernel, by decide +kernel⟩

end Tables

end ApiSurface
