import ApiSurface.Proofs.Codebase.Items
import ApiSurface.Proofs.Codebase.Traversal
import Mathlib.Data.List.Sort

/-!
All classes of a package, taken from a list of pending ones.

One step lists the first pending class and puts the classes nested in it in front of the others. What
is listed so far, followed by the preorders of all that is pending, is the same after the step, so the
whole list is the preorder of the forest of the package. No class is in it twice, so there are never
more steps than classes, and the budget of `drain` is enough. The walks over a package enter classes
in the same order.
-/

namespace ApiSurface

open scoped List

/-- The class that a step enters. -/
def Visit.class? : Visit → Option ClassId
  | cls c => some c
  | _ => none

namespace Tables

variable {t : Tables}

/-- The classes nested in a class, in the order of their declaration. -/
def nestedIn (t : Tables) (c : ClassId) : List ClassId :=
  (List.range t.classes.size).filter fun n => (t.classAt n).container = some c

/-- The classes of a package that are not nested, in the order of their declaration. -/
def topLevelIn (t : Tables) (p : PackageId) : List ClassId :=
  (List.range t.classes.size).filter fun c =>
    (t.classAt c).container = none ∧ (t.classAt c).package = p

/-- The classes that are listed when one pending class after the other is listed and the classes
nested in it become pending before the others, until none is pending. -/
inductive Drains (t : Tables) : List ClassId → List ClassId → Prop where
  | done : Drains t [] []
  | pop {c : ClassId} {pending listed : List ClassId}
      (rest : Drains t ((t.classAt c).nested ++ pending) listed) :
      Drains t (c :: pending) (c :: listed)

namespace Linked

variable (h : t.Linked)
include h

theorem nested_eq_nestedIn (c : ClassId) : (t.classAt c).nested = t.nestedIn c := by
  apply List.Pairwise.eq_of_mem_iff (h.sorted_children (.nested c)) (List.pairwise_lt_range.filter _)
  intro n
  rw [List.mem_filter, List.mem_range, decide_eq_true_eq]
  refine h.mem_nested_iff.trans (and_iff_right_of_imp fun hnests => ?_).symm
  exact (h.container_lt hnests).2

theorem classes_eq_topLevelIn {p : PackageId} (hp : p < t.packages.size) :
    (t.packageAt p).classes = t.topLevelIn p := by
  apply List.Pairwise.eq_of_mem_iff (h.sorted_children (.classes p)) (List.pairwise_lt_range.filter _)
  intro c
  rw [List.mem_filter, List.mem_range, decide_eq_true_eq]
  exact h.mem_classes_iff hp

/-- One step lists the first class and keeps the preorders of all that is still to come. -/
theorem flatMap_preorder_cons {c : ClassId} {pending : List ClassId} (hc : c < t.classes.size) :
    (c :: pending).flatMap t.preorder =
      c :: ((t.classAt c).nested ++ pending).flatMap t.preorder := by
  rw [List.flatMap_cons, h.preorder_eq hc, List.cons_append, List.flatMap_append]

theorem lt_of_mem_pending {c : ClassId} {pending : List ClassId}
    (hpending : ∀ d ∈ c :: pending, d < t.classes.size) :
    ∀ d ∈ (t.classAt c).nested ++ pending, d < t.classes.size := by
  intro d hd
  rcases List.mem_append.mp hd with hd | hd
  · exact h.lt_of_mem_nested hd
  · exact hpending d (List.mem_cons_of_mem c hd)

/-- With a budget of `n` steps, the first `n` classes of the preorders are listed. -/
theorem drain_eq_take (n : Nat) {pending : List ClassId}
    (hpending : ∀ c ∈ pending, c < t.classes.size) :
    t.drain n pending = (pending.flatMap t.preorder).take n := by
  induction n generalizing pending with
  | zero =>
    rw [List.take_zero]
    cases pending <;> rfl
  | succ n ih =>
    cases pending with
    | nil => rfl
    | cons c pending =>
      rw [h.flatMap_preorder_cons (hpending c List.mem_cons_self), List.take_succ_cons, drain,
        ih (h.lt_of_mem_pending hpending)]

/-- Without a budget, all classes of the preorders are listed. The induction is on their number, of
which every step takes one. -/
theorem drains_flatMap_preorder {pending : List ClassId}
    (hpending : ∀ c ∈ pending, c < t.classes.size) :
    t.Drains pending (pending.flatMap t.preorder) := by
  generalize hn : (pending.flatMap t.preorder).length = n
  induction n generalizing pending with
  | zero =>
    cases pending with
    | nil => exact .done
    | cons c pending =>
      rw [h.flatMap_preorder_cons (hpending c List.mem_cons_self)] at hn
      cases hn
  | succ n ih =>
    cases pending with
    | nil => cases hn
    | cons c pending =>
      rw [h.flatMap_preorder_cons (hpending c List.mem_cons_self)] at hn ⊢
      exact .pop (ih (h.lt_of_mem_pending hpending) (Nat.succ.inj hn))

theorem allClasses_eq {p : PackageId} (hp : p < t.packages.size) :
    t.allClasses p = t.forest p := by
  have hlength : (t.forest p).length ≤ t.classes.size :=
    length_le_of_nodup (h.nodup_forest hp) fun c hc => ((h.mem_forest_iff hp).mp hc).1
  rw [allClasses, h.drain_eq_take _ (h.lt_of_mem_classes hp), ← forest,
    List.take_of_length_le hlength]

/-- Both shapes of the walk over a package enter the classes of its forest in their order. -/
theorem filterMap_class?_visitPackage (nesting : Bool) {p : PackageId} (hp : p < t.packages.size) :
    (t.visitPackage nesting p).filterMap Visit.class? = t.forest p := by
  have hleaving : ∀ l : List Visit,
      (l.filter (!·.leavesClass)).filterMap Visit.class? = l.filterMap Visit.class? := by
    intro l
    rw [List.filterMap_filter]
    refine List.filterMap_congr fun v _ => ?_
    cases v <;> rfl
  have haliases : ((t.packageAt p).aliases.map Visit.typeAlias).filterMap Visit.class? = [] := by
    rw [List.filterMap_eq_nil_iff]
    intro v hv
    obtain ⟨a, _, rfl⟩ := List.mem_map.mp hv
    rfl
  have hmembers : ∀ c, (Visit.cls c :: t.visitMembers c).filterMap Visit.class? = [c] := by
    intro c
    rw [List.filterMap_cons_some (f := Visit.class?) rfl, List.cons_inj_right,
      List.filterMap_eq_nil_iff]
    intro v hv
    have hleaf := isLeaf_of_mem_visitMembers hv
    cases v with
    | cls d => cases hleaf
    | _ => rfl
  rw [← hleaving, h.filter_visitPackage nesting hp, outline, List.filterMap_cons_none rfl,
    List.filterMap_append, List.filterMap_append, haliases, List.filterMap_flatMap,
    List.flatMap_congr fun c _ => hmembers c]
  simp [Visit.class?]

end Linked

end Tables

/-- Every class of a codebase is in the forest of one package. -/
theorem Codebase.flatMap_forest_perm {cb : Codebase} (h : cb.tables.Linked) :
    cb.packages.flatMap cb.tables.forest ~ cb.classes := by
  have hlt : ∀ p ∈ cb.packages, p < cb.tables.packages.size := fun p => (mem_packages_iff h).mp
  have hnodup : (cb.packages.flatMap cb.tables.forest).Nodup := by
    refine List.nodup_flatMap.mpr ⟨fun p hp => h.nodup_forest (hlt p hp), ?_⟩
    refine (nodup_packages h).imp_of_mem fun {p q} hp hq hne c hcp hcq => hne ?_
    have hpackage := ((h.mem_forest_iff (hlt p hp)).mp hcp).2
    exact hpackage.symm.trans ((h.mem_forest_iff (hlt q hq)).mp hcq).2
  refine (List.perm_ext_iff_of_nodup hnodup List.nodup_range).mpr fun c => ?_
  rw [List.mem_flatMap, List.mem_range]
  constructor
  · rintro ⟨p, hp, hc⟩
    exact ((h.mem_forest_iff (hlt p hp)).mp hc).1
  · intro hc
    have hp := h.package_lt hc
    exact ⟨_, (mem_packages_iff h).mpr hp, (h.mem_forest_iff hp).mpr ⟨hc, rfl⟩⟩

/-- Whatever is called, the classes of a package that are listed from a list of pending ones, which
needs no budget to come to an end, are the preorder of its forest: the classes that are not nested,
and after each class those nested in it with their own, all in the order of their declaration. Both
shapes of the walk over the package enter classes in that order. All packages together have the
classes of the codebase. -/
theorem Codebase.allClasses_preorder (number : Nat) (settings : Settings) (calls : List Call) :
    let cb := Codebase.build number settings calls
    (∀ c < cb.tables.classes.size,
      cb.tables.preorder c = c :: (cb.tables.nestedIn c).flatMap cb.tables.preorder) ∧
    (∀ p < cb.tables.packages.size,
      cb.tables.Drains (cb.tables.packageAt p).classes (cb.tables.allClasses p) ∧
      cb.tables.allClasses p = (cb.tables.topLevelIn p).flatMap cb.tables.preorder ∧
      ∀ nesting, (cb.tables.visitPackage nesting p).filterMap Visit.class? =
        cb.tables.allClasses p) ∧
    cb.packages.flatMap cb.tables.allClasses ~ cb.classes := by
  intro cb
  have h : cb.tables.Linked := Tables.linked_run calls
  refine ⟨fun c hc => ?_, fun p hp => ⟨?_, ?_, fun nesting => ?_⟩, ?_⟩
  · rw [h.preorder_eq hc, h.nested_eq_nestedIn]
  · rw [h.allClasses_eq hp]
    exact h.drains_flatMap_preorder (h.lt_of_mem_classes hp)
  · rw [h.allClasses_eq hp, Tables.forest, h.classes_eq_topLevelIn hp]
  · rw [h.allClasses_eq hp, h.filterMap_class?_visitPackage nesting hp]
  · rw [List.flatMap_congr fun p hp => h.allClasses_eq ((mem_packages_iff h).mp hp)]
    exact flatMap_forest_perm h

/-- Two classes that were declared before the classes nested in them. -/
theorem Codebase.allClasses_preorder_interleaved :
    let calls : List Call :=
      [.addPackage { name := "lib" }, .addClass 0 none { name := "lib.A" },
        .addClass 0 none { name := "lib.B" }, .addClass 0 (some 1) { name := "lib.B.C" },
        .addClass 0 (some 0) { name := "lib.A.D" }, .addClass 0 (some 3) { name := "lib.A.D.E" }]
    let cb := Codebase.build 0 {} calls
    0 < cb.tables.packages.size ∧ cb.tables.allClasses 0 = [0, 3, 4, 1, 2] ∧
      ∀ nesting, (cb.tables.visitPackage nesting 0).filterMap Visit.class? = [0, 3, 4, 1, 2] := by
  intro calls cb
  have hp : 0 < cb.tables.packages.size := by decide +kernel
  have hall : cb.tables.allClasses 0 = [0, 3, 4, 1, 2] := by decide +kernel
  obtain ⟨_, hpackages, _⟩ := allClasses_preorder 0 {} calls
  refine ⟨hp, hall, fun nesting => ?_⟩
  rw [(hpackages 0 hp).2.2 nesting]
  exact hall

end ApiSurface
