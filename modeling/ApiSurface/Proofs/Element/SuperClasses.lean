import ApiSurface.Proofs.Element.Inheritance
import Mathlib.Data.List.Chain

/-!
The super classes of a class as the classes that it reaches.

Nothing keeps classes from extending each other in a circle, so a walk from class to super class runs
on an arbitrary graph in which every class has at most one successor. `Ascends` says what such a walk
returns: the classes that are reached, other than the one it starts from, in the order of their
distance. A list of distinct classes has that property if each is the successor of the one before it
and no successor is missing, and the chain of super classes is such a list.
-/

namespace ApiSurface

/-- The list `chain` has what is reached from `start` by steps to the next one, without `start` itself,
each once and nearest first. -/
structure Ascends {α : Type} (next? : α → Option α) (start : α) (chain : List α) : Prop where
  mem_iff : ∀ a, a ∈ chain ↔ a ≠ start ∧ Relation.TransGen (fun a b => next? a = some b) start a
  nodup : chain.Nodup
  steps : (start :: chain).IsChain fun a b => next? a = some b
  /-- What is at the place `i` is reached by `i + 1` steps and by no fewer. -/
  distance : ∀ i a, chain[i]? = some a →
    (·.bind next?)^[i + 1] (some start) = some a ∧
      ∀ n ≤ i, (·.bind next?)^[n] (some start) ≠ some a

section Chain

variable {α : Type} {next? : α → Option α} {start : α} {chain : List α}

/-- In a list of successors, what is at the place `n` is reached from the first one by `n` steps. -/
theorem iterate_of_getElem? (hsteps : (start :: chain).IsChain fun a b => next? a = some b)
    {n : Nat} {a : α} (ha : (start :: chain)[n]? = some a) :
    (·.bind next?)^[n] (some start) = some a := by
  induction n generalizing a with
  | zero => exact ha
  | succ n ih =>
    obtain ⟨hn, rfl⟩ := List.getElem?_eq_some_iff.mp ha
    have hbefore := ih (List.getElem?_eq_getElem (Nat.lt_of_succ_lt hn))
    rw [Function.iterate_succ_apply', hbefore, Option.bind_some]
    exact hsteps.getElem n hn

theorem ascends_of_closed (hnodup : (start :: chain).Nodup)
    (hsteps : (start :: chain).IsChain fun a b => next? a = some b)
    (hclosed : ∀ a ∈ start :: chain, ∀ b, next? a = some b → b ∈ start :: chain) :
    Ascends next? start chain where
  mem_iff a := by
    obtain ⟨hstart, _⟩ := List.nodup_cons.mp hnodup
    constructor
    · intro ha
      have hreach : (start :: chain).IsChain (Relation.TransGen fun a b => next? a = some b) :=
        hsteps.imp fun _ _ hstep => .single hstep
      exact ⟨fun heq => hstart (heq ▸ ha), hreach.rel_cons ha⟩
    · rintro ⟨hne, hreach⟩
      have hmem : ∀ b, Relation.TransGen (fun a b => next? a = some b) start b →
          b ∈ start :: chain := by
        intro b hb
        induction hb with
        | single hstep => exact hclosed start List.mem_cons_self _ hstep
        | tail _ hstep ih => exact hclosed _ ih _ hstep
      exact (List.mem_cons.mp (hmem a hreach)).resolve_left hne
  nodup := hnodup.of_cons
  steps := hsteps
  distance i a ha := by
    have hplace : (start :: chain)[i + 1]? = some a := ha
    refine ⟨iterate_of_getElem? hsteps hplace, fun n hn heq => ?_⟩
    -- Before the place `i + 1` there are other elements, and these are what fewer steps lead to.
    have hlength := (List.getElem?_eq_some_iff.mp hplace).1
    have hget := List.getElem?_eq_getElem (Nat.lt_of_le_of_lt (Nat.le_succ_of_le hn) hlength)
    have hsame := (iterate_of_getElem? hsteps hget).symm.trans heq
    rw [← hget, ← hplace] at hsame
    have hindex := (List.getElem?_inj (by omega) hnodup).mp hsame
    omega

end Chain

namespace ClassRef

theorem superClass?_eq_some_iff {c d : ClassRef} :
    c.superClass? = some d ↔
      ∃ id, c.codebase.tables.superClass? c.id = some id ∧ ⟨c.codebase, id⟩ = d :=
  Option.map_eq_some_iff

/-- The chain of super classes leaves out none that is reached, because it stops only where there is
no super class or where it would come to a class for the second time. -/
theorem ascends_superClasses {c : ClassRef} (h : c.codebase.tables.Linked)
    (hc : c.id < c.codebase.tables.classes.size) :
    Ascends superClass? c c.superClasses := by
  obtain ⟨cb, id⟩ := c
  have hclimbs := Tables.climbs_superClasses h hc
  have hview : Function.Injective fun id : ClassId => (⟨cb, id⟩ : ClassRef) := by
    intro a b hab
    exact congrArg ClassRef.id hab
  have hviews : (⟨cb, id⟩ : ClassRef) :: superClasses ⟨cb, id⟩ =
      (id :: cb.tables.superClasses id).map (⟨cb, ·⟩) := rfl
  apply ascends_of_closed
  · rw [hviews, List.nodup_map_iff hview, List.nodup_cons]
    refine ⟨fun hmem => ?_, hclimbs.nodup⟩
    exact hclimbs.not_mem_seen hmem (List.mem_singleton_self id)
  · rw [hviews, List.isChain_map]
    exact (hclimbs.isChain rfl).imp fun a b hab => superClass?_eq_some_iff.mpr ⟨b, hab, rfl⟩
  · intro a ha b hab
    rw [hviews] at ha ⊢
    obtain ⟨i, hi, rfl⟩ := List.mem_map.mp ha
    obtain ⟨j, hij, rfl⟩ := superClass?_eq_some_iff.mp hab
    refine List.mem_map_of_mem (List.mem_cons.mpr ?_)
    have hstart : ∀ i ∈ [id], ∀ j, cb.tables.superClass? i = some j →
        j ∈ [id] ∨ cb.tables.superClass? id = some j := by
      intro i hi j hij
      exact .inr (List.mem_singleton.mp hi ▸ hij)
    have hmem := hclimbs.closed hstart (by simpa using hi) hij
    simpa using hmem

/-- Whatever classes extend, also themselves or each other in a circle, the walk from class to super
class ends without a budget, and what it returns are classes of the codebase: those that the class
reaches, nearest first. -/
theorem superClasses_reached (number : Nat) (settings : Settings) (calls : List Call) (id : ClassId)
    (c : ClassRef) (hc : (Codebase.build number settings calls).class? id = some c) :
    c.codebase.tables.Climbs [c.id] (c.codebase.tables.superClass? c.id)
      (c.superClasses.map (·.id)) ∧
    (∀ d ∈ c.superClasses, (Codebase.build number settings calls).class? d.id = some d) ∧
    Ascends superClass? c c.superClasses := by
  have hlinked := linked_of_class? hc
  obtain ⟨hlt, rfl⟩ := Codebase.class?_eq_some_iff.mp hc
  have hclimbs := Tables.climbs_superClasses hlinked hlt
  refine ⟨?_, fun d hd => ?_, ascends_superClasses hlinked hlt⟩
  · rw [superClasses, List.map_map]
    exact (List.map_id _).symm ▸ hclimbs
  · obtain ⟨j, hj, rfl⟩ := List.mem_map.mp hd
    refine Codebase.class?_eq_some_iff.mpr ⟨?_, rfl⟩
    exact hclimbs.lt_size hlinked (fun _ hsuper => Tables.superClass?_lt hlinked hsuper) hj

/-- A class below the circle, which it does not belong to. -/
def belowCycleCalls : List Call :=
  cycleCalls ++ [.addClass 0 none { name := "p.D", superType := some ⟨{}, {}, "p.B", none, []⟩ }]

def belowCycle : Codebase := .build 0 {} belowCycleCalls

/-- From `p.D` the walk goes around the circle once and ends before it comes to `p.B` again. -/
theorem superClasses_reached_circle :
    belowCycle.class? 3 = some ⟨belowCycle, 3⟩ ∧
      (superClasses ⟨belowCycle, 3⟩).map (·.name) = ["p.B", "p.C", "p.A"] ∧
      Ascends superClass? ⟨belowCycle, 3⟩ (superClasses ⟨belowCycle, 3⟩) := by
  have hc : belowCycle.class? 3 = some ⟨belowCycle, 3⟩ := if_pos (by decide +kernel)
  refine ⟨hc, by decide +kernel, ?_⟩
  exact (superClasses_reached 0 {} belowCycleCalls 3 ⟨belowCycle, 3⟩ hc).2.2

end ClassRef

end ApiSurface
