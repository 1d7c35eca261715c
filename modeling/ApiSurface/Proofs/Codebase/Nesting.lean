import ApiSurface.Proofs.Codebase.Containment
import Mathlib.Logic.Relation

/-!
Classes inside classes.

In linked tables a class is listed exactly by what it refers to as its container or its package, and
a container comes before what it contains. Going outwards ends, and so does going inwards: a walk
from class to nested class needs at most as many levels as there are classes from its start on. So
both directions have equations without a bound on their steps, and what holds of a class when it
holds of the classes nested in it holds of all classes.

`preorder` lists a class with all that it contains, and `forest` all classes of a package.
-/

namespace ApiSurface

theorem Lists.nodup {α β : Type} [DecidableEq β] {entries : Array α} {children : α → List Nat}
    {owners : List β} {key : Nat → β} (h : Lists entries children owners key) {i : Nat} {e : α}
    (he : entries[i]? = some e) : (children e).Nodup := by
  rw [h i e he]
  exact List.nodup_idxsOf

namespace Tables

variable {t : Tables}

/-- The class `outer` is the container of `inner`. -/
def Nests (t : Tables) (outer inner : ClassId) : Prop :=
  (t.classAt inner).container = some outer

/-- Of two classes around a third one, one is around the other. -/
theorem comparable_of_around {a b d : ClassId} (ha : Relation.ReflTransGen t.Nests a d)
    (hb : Relation.ReflTransGen t.Nests b d) :
    Relation.ReflTransGen t.Nests a b ∨ Relation.ReflTransGen t.Nests b a := by
  have hunique : Relator.RightUnique (Function.swap t.Nests) := by
    intro inner outer outer' houter houter'
    exact Option.some.inj (houter.symm.trans houter')
  have houtwards := Relation.ReflTransGen.total_of_right_unique hunique
    (Relation.reflTransGen_swap.mpr ha) (Relation.reflTransGen_swap.mpr hb)
  exact houtwards.symm.imp Relation.reflTransGen_swap.mp Relation.reflTransGen_swap.mp

theorem packageAt_eq {p : PackageId} {e : PackageEntry} (he : t.packages[p]? = some e) :
    t.packageAt p = e := by
  simp [packageAt, Array.getD_eq_getD_getElem?, he]

theorem memberAt_eq {m : MemberId} {e : MemberEntry} (he : t.members[m]? = some e) :
    t.memberAt m = e := by
  simp [memberAt, Array.getD_eq_getD_getElem?, he]

theorem aliasAt_eq {a : AliasId} {e : AliasEntry} (he : t.aliases[a]? = some e) :
    t.aliasAt a = e := by
  simp [aliasAt, Array.getD_eq_getD_getElem?, he]

theorem getElem?_classOwners_eq_some_iff {c : ClassId} {owner : PackageId ⊕ ClassId} :
    t.classOwners[c]? = some owner ↔ c < t.classes.size ∧ (t.classAt c).owner = owner := by
  have hget : t.classOwners[c]? = t.classes[c]?.map ClassEntry.owner := by
    rw [classOwners, bareClasses, List.map_map, List.getElem?_map, Array.getElem?_toList]
    rfl
  rw [hget]
  by_cases hc : c < t.classes.size
  · have he := Array.getElem?_eq_getElem hc
    simp [classAt_eq he, hc]
  · simp [hc]

theorem owner_eq_inr_iff {e : ClassEntry} {outer : ClassId} :
    e.owner = .inr outer ↔ e.container = some outer := by
  rw [ClassEntry.owner]
  cases e.container <;> simp

theorem owner_eq_inl_iff {e : ClassEntry} {p : PackageId} :
    e.owner = .inl p ↔ e.container = none ∧ e.package = p := by
  rw [ClassEntry.owner]
  cases e.container <;> simp

namespace Linked

variable (h : t.Linked)
include h

theorem mem_nested_iff {c n : ClassId} : n ∈ (t.classAt c).nested ↔ t.Nests c n := by
  cases hc : t.classes[c]? with
  | none =>
    rw [classAt_eq_default hc]
    refine iff_of_false List.not_mem_nil fun hnests => ?_
    have hlt := h.container_lt hnests
    rw [Array.getElem?_eq_none_iff] at hc
    omega
  | some e =>
    rw [classAt_eq hc, h.nested.mem_iff hc, getElem?_classOwners_eq_some_iff, owner_eq_inr_iff]
    exact and_iff_right_of_imp fun hnests => (h.container_lt hnests).2

theorem mem_classes_iff {p : PackageId} {c : ClassId} (hp : p < t.packages.size) :
    c ∈ (t.packageAt p).classes ↔
      c < t.classes.size ∧ (t.classAt c).container = none ∧ (t.classAt c).package = p := by
  have he := Array.getElem?_eq_getElem hp
  rw [packageAt_eq he, h.topLevel.mem_iff he, getElem?_classOwners_eq_some_iff, owner_eq_inl_iff]

theorem mem_members_iff {c : ClassId} {m : MemberId} :
    m ∈ (t.classAt c).members ↔ m < t.members.size ∧ (t.memberAt m).declaredIn = c := by
  have howner : t.memberOwners[m]? = some c ↔
      m < t.members.size ∧ (t.memberAt m).declaredIn = c := by
    rw [memberOwners, List.getElem?_map, Array.getElem?_toList]
    by_cases hm : m < t.members.size
    · have he := Array.getElem?_eq_getElem hm
      simp [memberAt_eq he, hm]
    · simp [hm]
  cases hc : t.classes[c]? with
  | none =>
    rw [classAt_eq_default hc]
    refine iff_of_false List.not_mem_nil fun hdeclared => ?_
    have hlt := h.memberOwner_lt c (List.mem_of_getElem? (howner.mpr hdeclared))
    exact Nat.not_lt.mpr (Array.getElem?_eq_none_iff.mp hc) hlt
  | some e => rw [classAt_eq hc, h.members.mem_iff hc, id, howner]

theorem mem_aliases_iff {p : PackageId} {a : AliasId} (hp : p < t.packages.size) :
    a ∈ (t.packageAt p).aliases ↔ a < t.aliases.size ∧ (t.aliasAt a).package = p := by
  have he := Array.getElem?_eq_getElem hp
  rw [packageAt_eq he, h.aliases.mem_iff he, id, aliasOwners, List.getElem?_map,
    Array.getElem?_toList]
  by_cases ha : a < t.aliases.size
  · have hentry := Array.getElem?_eq_getElem ha
    simp [aliasAt_eq hentry, ha]
  · simp [ha]

theorem package_lt {c : ClassId} (hc : c < t.classes.size) :
    (t.classAt c).package < t.packages.size := by
  have he := Array.getElem?_eq_getElem hc
  obtain ⟨p, hp, _⟩ := h.isForest.package c _ he
  rw [classAt_eq he]
  exact (Array.getElem?_eq_some_iff.mp hp).1

theorem declaredIn_lt {m : MemberId} (hm : m < t.members.size) :
    (t.memberAt m).declaredIn < t.classes.size := by
  have he := Array.getElem?_eq_getElem hm
  obtain ⟨c, hc, _⟩ := h.isForest.declaredIn m _ he
  rw [memberAt_eq he]
  exact (Array.getElem?_eq_some_iff.mp hc).1

theorem aliasPackage_lt {a : AliasId} (ha : a < t.aliases.size) :
    (t.aliasAt a).package < t.packages.size := by
  have he := Array.getElem?_eq_getElem ha
  obtain ⟨p, hp, _⟩ := h.isForest.aliasPackage a _ he
  rw [aliasAt_eq he]
  exact (Array.getElem?_eq_some_iff.mp hp).1

theorem package_of_nests {outer inner : ClassId} (hnests : t.Nests outer inner) :
    (t.classAt outer).package = (t.classAt inner).package := by
  have he := Array.getElem?_eq_getElem (h.container_lt hnests).2
  rw [Nests, classAt_eq he] at hnests
  obtain ⟨_, o, ho, _, hpackage, _⟩ := h.isForest.container inner outer _ he hnests
  rw [classAt_eq ho, classAt_eq he, hpackage]

/-- While the number of a class bounds its steps, one step outwards is always left for its
container. -/
theorem enclosingWithin_step {n c : Nat} (hc : c ≤ n) :
    t.enclosingWithin n c = c :: (t.classAt c).container.elim [] (t.enclosingWithin (n - 1)) := by
  cases n with
  | zero =>
    cases hcont : (t.classAt c).container with
    | none => rfl
    | some outer =>
      exact absurd (Nat.lt_of_lt_of_le (h.container_lt hcont).1 hc) (Nat.not_lt_zero outer)
  | succ n =>
    rw [enclosingWithin]
    cases (t.classAt c).container <;> rfl

theorem enclosingWithin_eq (n c : Nat) (hc : c ≤ n) : t.enclosingWithin n c = t.enclosing c := by
  induction c using Nat.strongRecOn generalizing n with
  | ind c ih =>
    rw [enclosing, h.enclosingWithin_step hc, h.enclosingWithin_step (Nat.le_refl c)]
    cases hcont : (t.classAt c).container with
    | none => rfl
    | some outer =>
      have hlt := (h.container_lt hcont).1
      rw [Option.elim_some, Option.elim_some,
        ih outer hlt (n - 1) (Nat.le_sub_one_of_lt (Nat.lt_of_lt_of_le hlt hc)),
        ih outer hlt (c - 1) (Nat.le_sub_one_of_lt hlt)]

/-- A class comes before all that encloses its container. -/
theorem enclosing_eq (c : ClassId) :
    t.enclosing c = c :: (t.classAt c).container.elim [] t.enclosing := by
  rw [enclosing, h.enclosingWithin_step (Nat.le_refl c)]
  cases hcont : (t.classAt c).container with
  | none => rfl
  | some outer =>
    have hlt := (h.container_lt hcont).1
    rw [Option.elim_some, Option.elim_some, h.enclosingWithin_eq _ _ (Nat.le_sub_one_of_lt hlt)]

/-- What holds of a class when it holds of the classes nested in it holds of all classes. -/
@[elab_as_elim]
theorem nested_induction {P : (c : Nat) → c < t.classes.size → Prop}
    (step : ∀ (c : Nat) (hc : c < t.classes.size),
      (∀ (n : Nat) (hn : n < t.classes.size), n ∈ (t.classAt c).nested → P n hn) → P c hc)
    (c : Nat) (hc : c < t.classes.size) : P c hc := by
  have hlevels : ∀ (k c : Nat) (hc : c < t.classes.size), t.classes.size ≤ c + k → P c hc := by
    intro k
    induction k with
    | zero =>
      intro c hc hk
      omega
    | succ k ih =>
      intro c hc hk
      refine step c hc fun n hn hmem => ?_
      have hlt := h.container_lt (h.mem_nested_iff.mp hmem)
      exact ih n hn (by omega)
  exact hlevels t.classes.size c hc (Nat.le_add_left _ _)

end Linked

/-- A walk over a class and the classes nested in it, at most `n` levels down. `visit` puts together
what is met at a class and what was met at the classes nested in it. -/
def walkWithin {α : Type} (t : Tables) (visit : ClassId → List α → List α) : Nat → ClassId → List α
  | 0, _ => []
  | n + 1, c => visit c ((t.classAt c).nested.flatMap (walkWithin t visit n))

/-- A walk over a class and the classes nested in it. -/
def walk {α : Type} (t : Tables) (visit : ClassId → List α → List α) (c : ClassId) : List α :=
  t.walkWithin visit (t.classes.size - c) c

/-- A class, and after it the classes nested in it, each with its own. -/
def preorder (t : Tables) (c : ClassId) : List ClassId := t.walk List.cons c

/-- All classes of a package. -/
def forest (t : Tables) (p : PackageId) : List ClassId :=
  (t.packageAt p).classes.flatMap t.preorder

namespace Linked

variable {α : Type} (h : t.Linked)
include h

/-- However many levels are allowed, if they are as many as there are classes from `c` on, a walk
meets all classes nested in `c`. -/
theorem walkWithin_eq (visit : ClassId → List α → List α) {c : ClassId} (hc : c < t.classes.size)
    (n : Nat) (hn : t.classes.size - c ≤ n) :
    t.walkWithin visit n c = visit c ((t.classAt c).nested.flatMap (t.walk visit)) := by
  induction c, hc using h.nested_induction generalizing n with
  | step c hc ih =>
    obtain ⟨m, rfl⟩ := Nat.exists_eq_succ_of_ne_zero (n := n) (by omega)
    have hwalks : ∀ d ∈ (t.classAt c).nested, t.walkWithin visit m d = t.walk visit d := by
      intro d hd
      have hlt := h.container_lt (h.mem_nested_iff.mp hd)
      rw [walk, ih d hlt.2 hd m (by omega), ih d hlt.2 hd _ (Nat.le_refl _)]
    rw [walkWithin, List.flatMap_congr hwalks]

/-- What a walk meets at a class, put together with what it meets at the classes nested in it. -/
theorem walk_eq (visit : ClassId → List α → List α) {c : ClassId} (hc : c < t.classes.size) :
    t.walk visit c = visit c ((t.classAt c).nested.flatMap (t.walk visit)) :=
  h.walkWithin_eq visit hc _ (Nat.le_refl _)

theorem preorder_eq {c : ClassId} (hc : c < t.classes.size) :
    t.preorder c = c :: (t.classAt c).nested.flatMap t.preorder :=
  h.walk_eq List.cons hc

theorem lt_of_mem_classes {p : PackageId} (hp : p < t.packages.size) :
    ∀ c ∈ (t.packageAt p).classes, c < t.classes.size :=
  fun _ hc => ((h.mem_classes_iff hp).mp hc).1

theorem lt_of_mem_nested {c n : ClassId} (hn : n ∈ (t.classAt c).nested) : n < t.classes.size :=
  (h.container_lt (h.mem_nested_iff.mp hn)).2

/-- A class is listed with what it contains, at any depth. -/
theorem mem_preorder_iff {c d : ClassId} (hc : c < t.classes.size) :
    d ∈ t.preorder c ↔ Relation.ReflTransGen t.Nests c d := by
  induction c, hc using h.nested_induction with
  | step c hc ih =>
    rw [h.preorder_eq hc, List.mem_cons, List.mem_flatMap, Relation.ReflTransGen.cases_head_iff]
    refine or_congr eq_comm (exists_congr fun n => ?_)
    rw [h.mem_nested_iff]
    refine and_congr_right fun hnests => ?_
    exact ih n (h.container_lt hnests).2 (h.mem_nested_iff.mpr hnests)

theorem le_of_reach {c d : Nat} (hreach : Relation.ReflTransGen t.Nests c d) : c ≤ d := by
  induction hreach with
  | refl => exact Nat.le_refl c
  | tail _ hnests ih => exact Nat.le_trans ih (Nat.le_of_lt (h.container_lt hnests).1)

theorem lt_of_reach {c d : ClassId} (hc : c < t.classes.size)
    (hreach : Relation.ReflTransGen t.Nests c d) : d < t.classes.size := by
  cases hreach with
  | refl => exact hc
  | tail _ hnests => exact (h.container_lt hnests).2

theorem package_of_reach {c d : ClassId} (hreach : Relation.ReflTransGen t.Nests c d) :
    (t.classAt c).package = (t.classAt d).package := by
  induction hreach with
  | refl => rfl
  | tail _ hnests ih => exact ih.trans (h.package_of_nests hnests)

theorem nodup_nested (c : ClassId) : (t.classAt c).nested.Nodup := by
  cases he : t.classes[c]? with
  | none =>
    rw [classAt_eq_default he]
    exact List.nodup_nil
  | some e =>
    rw [classAt_eq he]
    exact h.nested.nodup he

theorem nodup_members (c : ClassId) : (t.classAt c).members.Nodup := by
  cases he : t.classes[c]? with
  | none =>
    rw [classAt_eq_default he]
    exact List.nodup_nil
  | some e =>
    rw [classAt_eq he]
    exact h.members.nodup he

/-- Different classes with the same container have nothing in common: of two classes around a third
one, one would be around the other, and its container around itself. -/
theorem disjoint_preorder {a b : ClassId} (ha : a < t.classes.size) (hb : b < t.classes.size)
    (hne : a ≠ b) (hsame : (t.classAt a).container = (t.classAt b).container) :
    (t.preorder a).Disjoint (t.preorder b) := by
  have hapart : ∀ a b : ClassId, a ≠ b → (t.classAt a).container = (t.classAt b).container →
      ¬ Relation.ReflTransGen t.Nests a b := by
    intro a b hne hsame hreach
    rcases Relation.ReflTransGen.cases_tail hreach with heq | ⟨outer, hreach, hnests⟩
    · exact hne heq.symm
    · have hcontainer : t.Nests outer a := hsame.trans hnests
      exact Nat.not_lt.mpr (h.le_of_reach hreach) (h.container_lt hcontainer).1
  intro d hda hdb
  rw [h.mem_preorder_iff ha] at hda
  rw [h.mem_preorder_iff hb] at hdb
  rcases comparable_of_around hda hdb with hreach | hreach
  · exact hapart a b hne hsame hreach
  · exact hapart b a hne.symm hsame.symm hreach

theorem nodup_flatMap_preorder {roots : List ClassId} {container : Option ClassId}
    (hnodup : roots.Nodup) (hroots : ∀ c ∈ roots, (t.classAt c).container = container)
    (hlt : ∀ c ∈ roots, c < t.classes.size)
    (heach : ∀ c ∈ roots, (t.preorder c).Nodup) : (roots.flatMap t.preorder).Nodup := by
  rw [List.nodup_flatMap]
  refine ⟨heach, hnodup.imp_of_mem fun {a b} ha hb hne => ?_⟩
  exact h.disjoint_preorder (hlt a ha) (hlt b hb) hne ((hroots a ha).trans (hroots b hb).symm)

theorem nodup_preorder {c : ClassId} (hc : c < t.classes.size) : (t.preorder c).Nodup := by
  induction c, hc using h.nested_induction with
  | step c hc ih =>
    rw [h.preorder_eq hc, List.nodup_cons]
    constructor
    · intro hmem
      obtain ⟨n, hn, hmem⟩ := List.mem_flatMap.mp hmem
      have hlt := h.container_lt (h.mem_nested_iff.mp hn)
      exact Nat.not_lt.mpr (h.le_of_reach ((h.mem_preorder_iff hlt.2).mp hmem)) hlt.1
    · refine h.nodup_flatMap_preorder (h.nodup_nested c) (fun n hn => h.mem_nested_iff.mp hn)
        (fun n hn => h.lt_of_mem_nested hn) fun n hn => ih n (h.lt_of_mem_nested hn) hn

/-- The forest of a package has the classes of the package. -/
theorem mem_forest_iff {p : PackageId} (hp : p < t.packages.size) {d : ClassId} :
    d ∈ t.forest p ↔ d < t.classes.size ∧ (t.classAt d).package = p := by
  rw [forest, List.mem_flatMap]
  constructor
  · rintro ⟨root, hroot, hmem⟩
    obtain ⟨hlt, _, hpackage⟩ := (h.mem_classes_iff hp).mp hroot
    have hreach := (h.mem_preorder_iff hlt).mp hmem
    exact ⟨h.lt_of_reach hlt hreach, (h.package_of_reach hreach).symm.trans hpackage⟩
  · intro hd
    -- A container has a smaller number: the root of `d` is that of its container.
    induction d using Nat.strongRecOn with
    | ind d ih =>
      cases hcont : (t.classAt d).container with
      | none =>
        refine ⟨d, (h.mem_classes_iff hp).mpr ⟨hd.1, hcont, hd.2⟩, ?_⟩
        exact (h.mem_preorder_iff hd.1).mpr .refl
      | some outer =>
        have hlt := h.container_lt hcont
        obtain ⟨root, hroot, hmem⟩ := ih outer hlt.1
          ⟨Nat.lt_trans hlt.1 hlt.2, (h.package_of_nests hcont).trans hd.2⟩
        have hrootlt := h.lt_of_mem_classes hp root hroot
        refine ⟨root, hroot, (h.mem_preorder_iff hrootlt).mpr ?_⟩
        exact .tail ((h.mem_preorder_iff hrootlt).mp hmem) hcont

theorem nodup_forest {p : PackageId} (hp : p < t.packages.size) : (t.forest p).Nodup := by
  have he := Array.getElem?_eq_getElem hp
  have hroots : (t.packageAt p).classes.Nodup := by
    rw [packageAt_eq he]
    exact h.topLevel.nodup he
  refine h.nodup_flatMap_preorder hroots (fun c hc => ((h.mem_classes_iff hp).mp hc).2.1)
    (h.lt_of_mem_classes hp) fun c hc => ?_
  exact h.nodup_preorder (h.lt_of_mem_classes hp c hc)

end Linked

end Tables

end ApiSurface
