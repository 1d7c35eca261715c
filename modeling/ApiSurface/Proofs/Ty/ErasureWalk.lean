import ApiSurface.Proofs.Ty.Renaming
import Mathlib.Logic.Relation

/-!
The erased text of a type as the end of a walk.

A walk takes off array layers and follows the bounds of variables, and counts both. It stops at a
type that is neither an array nor a variable, at a variable without a bound, and at any variable
once as many bounds were followed as the limit allows. The layers are written behind what it stopped
at, wherever on the way they were taken off.
-/

namespace ApiSurface.Ty

/-- How far a walk has come: the type that it has reached, the bounds that it has followed and the
array layers that it has taken off. -/
structure ErasureStage where
  reached : Ty
  bounds : Nat := 0
  layers : Nat := 0

namespace ErasureStage

/-- One step of a walk that follows at most `limit` bounds. -/
inductive Step (boundOf : String → Option Ty) (limit : Nat) :
    ErasureStage → ErasureStage → Prop where
  | layer (i : Ident) (m : TypeModifiers) (varargs : Bool) (component : Ty) (k n : Nat) :
      Step boundOf limit ⟨.array i m varargs component, k, n⟩ ⟨component, k, n + 1⟩
  | bound (v : Variable) (bound : Ty) (k n : Nat) (found : boundOf v.name = some bound)
      (allowed : k < limit) : Step boundOf limit ⟨.var v, k, n⟩ ⟨bound, k + 1, n⟩

/-- Where a walk stops, with the text of what it has reached. -/
inductive Stops (boundOf : String → Option Ty) (limit : Nat) : ErasureStage → String → Prop where
  | type (t : Ty) (k n : Nat) (notArray : t.kind ≠ .array) (notVar : t.kind ≠ .var) :
      Stops boundOf limit ⟨t, k, n⟩ t.erasedText
  | unbound (v : Variable) (k n : Nat) (missing : boundOf v.name = none) :
      Stops boundOf limit ⟨.var v, k, n⟩ objectName
  | exhausted (v : Variable) (k n : Nat) (spent : limit ≤ k) :
      Stops boundOf limit ⟨.var v, k, n⟩ objectName

/-- As many layers as were taken off. -/
def brackets (n : Nat) : String := String.join (List.replicate n "[]")

theorem brackets_succ (n : Nat) : brackets (n + 1) = "[]" ++ brackets n := by
  rw [brackets, brackets, List.replicate_succ, String.join_cons]

/-- The text that a walk from this stage will end with. -/
def text (boundOf : String → Option Ty) (limit : Nat) (s : ErasureStage) : String :=
  s.reached.eraseHead (eraseVar boundOf (limit - s.bounds)) ++ brackets s.layers

variable {boundOf : String → Option Ty} {limit : Nat} {s s' : ErasureStage}

theorem eraseVar_of_bound {v : String} {bound : Ty} (hbound : boundOf v = some bound) (n : Nat) :
    eraseVar boundOf (n + 1) v = bound.eraseHead (eraseVar boundOf n) := by
  rw [eraseVar, hbound]

theorem eraseVar_of_unbound {v : String} (hbound : boundOf v = none) (n : Nat) :
    eraseVar boundOf n v = objectName := by
  cases n with
  | zero => rfl
  | succ n => rw [eraseVar, hbound]

theorem Step.text_eq (h : Step boundOf limit s s') :
    s.text boundOf limit = s'.text boundOf limit := by
  cases h with
  | layer i m varargs component k n =>
    show component.eraseHead _ ++ "[]" ++ brackets n = component.eraseHead _ ++ brackets (n + 1)
    rw [brackets_succ, String.append_assoc]
  | bound v bound k n found allowed =>
    show eraseVar boundOf (limit - k) v.name ++ brackets n =
      bound.eraseHead (eraseVar boundOf (limit - (k + 1))) ++ brackets n
    have hleft : limit - k = limit - (k + 1) + 1 := by omega
    rw [hleft, eraseVar_of_bound found]

theorem text_eq_of_walk (h : Relation.ReflTransGen (Step boundOf limit) s s') :
    s.text boundOf limit = s'.text boundOf limit := by
  induction h with
  | refl => rfl
  | tail _ hstep ih => exact ih.trans hstep.text_eq

theorem Stops.text_eq {e : String} (h : Stops boundOf limit s e) :
    s.text boundOf limit = e ++ brackets s.layers := by
  cases h with
  | type t k n notArray notVar =>
    cases t with
    | array => exact absurd rfl notArray
    | var => exact absurd rfl notVar
    | _ => rfl
  | unbound v k n missing => exact congrArg (· ++ brackets n) (eraseVar_of_unbound missing _)
  | exhausted v k n spent =>
    show eraseVar boundOf (limit - k) v.name ++ brackets n = objectName ++ brackets n
    rw [Nat.sub_eq_zero_of_le spent, eraseVar]

/-- A walk that cannot go on has stopped. -/
theorem stops_or_step (boundOf : String → Option Ty) (limit : Nat) (s : ErasureStage) :
    (∃ e, Stops boundOf limit s e) ∨ ∃ s', Step boundOf limit s s' := by
  obtain ⟨t, k, n⟩ := s
  cases t with
  | array i m varargs component => exact .inr ⟨_, .layer i m varargs component k n⟩
  | var v =>
    cases hbound : boundOf v.name with
    | none => exact .inl ⟨_, .unbound v k n hbound⟩
    | some bound =>
      by_cases hallowed : k < limit
      · exact .inr ⟨_, .bound v bound k n hbound hallowed⟩
      · exact .inl ⟨_, .exhausted v k n (Nat.le_of_not_lt hallowed)⟩
  | _ => exact .inl ⟨_, .type _ k n nofun nofun⟩

/-- Bounds run out, and between two of them the type gets smaller: no walk goes on for ever. -/
theorem wellFounded_step (boundOf : String → Option Ty) (limit : Nat) :
    WellFounded fun s s' => Step boundOf limit s' s := by
  have hwf := InvImage.wf (fun s : ErasureStage => (limit - s.bounds, sizeOf s.reached))
    (Prod.lex Nat.lt_wfRel Nat.lt_wfRel).wf
  refine Subrelation.wf ?_ hwf
  intro s' s h
  cases h with
  | layer i m varargs component k n =>
    refine Prod.Lex.right _ ?_
    show sizeOf component < sizeOf (Ty.array i m varargs component)
    rw [Ty.array.sizeOf_spec]
    omega
  | bound v bound k n found allowed =>
    refine Prod.Lex.left _ _ ?_
    show limit - (k + 1) < limit - k
    omega

theorem exists_stops (boundOf : String → Option Ty) (limit : Nat) (s : ErasureStage) :
    ∃ s' e, Relation.ReflTransGen (Step boundOf limit) s s' ∧ Stops boundOf limit s' e := by
  induction s using (wellFounded_step boundOf limit).induction with
  | _ s ih =>
    rcases stops_or_step boundOf limit s with ⟨e, hstops⟩ | ⟨s', hstep⟩
    · exact ⟨s, e, .refl, hstops⟩
    · obtain ⟨end', e, hwalk, hstops⟩ := ih s' hstep
      exact ⟨end', e, hwalk.head hstep, hstops⟩

/-- A stage that is reached within the limit is reached whatever limit the walk had. -/
theorem walk_of_bounds_le {limit' : Nat} (h : Relation.ReflTransGen (Step boundOf limit') s s')
    (hle : s'.bounds ≤ limit) : Relation.ReflTransGen (Step boundOf limit) s s' := by
  induction h with
  | refl => exact .refl
  | tail _ hstep ih =>
    cases hstep with
    | layer i m varargs component k n =>
      exact (ih hle).tail (.layer i m varargs component k n)
    | bound v bound k n found allowed =>
      exact (ih (Nat.le_of_succ_le hle)).tail (.bound v bound k n found hle)

end ErasureStage

open ErasureStage

/-- The erased text of a type is what its walk over at most eight bounds stops at, with all the
array layers that were taken off on the way. Every walk comes to its end. Layers are written alike
whether they take variable arguments or not, up to eight bounds are followed to what is behind them,
and a type that has no variable under its layers needs no bounds. -/
theorem erasedWith_walks (boundOf : String → Option Ty) (t : Ty) :
    (∀ text, t.erasedWith boundOf = text ↔ ∃ s e,
      Relation.ReflTransGen (Step boundOf 8) ⟨t, 0, 0⟩ s ∧ Stops boundOf 8 s e ∧
        text = e ++ brackets s.layers) ∧
    (WellFounded fun s s' => Step boundOf 8 s' s) ∧
    (∀ i m varargs,
      (array i m varargs t).erasedWith boundOf = t.erasedWith boundOf ++ "[]") ∧
    (∀ limit s, Relation.ReflTransGen (Step boundOf limit) ⟨t, 0, 0⟩ s → s.bounds ≤ 8 →
      s.reached.kind ≠ .array → s.reached.kind ≠ .var →
        t.erasedWith boundOf = s.reached.erasedText ++ brackets s.layers) ∧
    (t.headVariable? = none → t.erasedWith boundOf = t.erasedText) := by
  have hstart : t.erasedWith boundOf = (ErasureStage.mk t 0 0).text boundOf 8 :=
    String.append_empty.symm
  refine ⟨?_, wellFounded_step boundOf 8, fun i m varargs => rfl, ?_, ?_⟩
  · intro text
    rw [hstart]
    constructor
    · rintro rfl
      obtain ⟨s, e, hwalk, hstops⟩ := exists_stops boundOf 8 ⟨t, 0, 0⟩
      exact ⟨s, e, hwalk, hstops, (text_eq_of_walk hwalk).trans hstops.text_eq⟩
    · rintro ⟨s, e, hwalk, hstops, rfl⟩
      exact (text_eq_of_walk hwalk).trans hstops.text_eq
  · intro limit s hwalk hbounds hnotArray hnotVar
    rw [hstart, text_eq_of_walk (walk_of_bounds_le hwalk hbounds)]
    exact (Stops.type s.reached s.bounds s.layers hnotArray hnotVar).text_eq
  · intro hnone
    exact eraseHead_of_headVariable?_eq_none hnone _

/-- Each of the variables `a` to `h` is bounded by the next one, and `h` by an array of strings. -/
def eightBounds (name : String) : Option Ty :=
  if name = "h" then some (.array {} {} false (.cls ⟨{}, {}, "java.lang.String", none, []⟩))
  else ([("a", "b"), ("b", "c"), ("c", "d"), ("d", "e"), ("e", "f"), ("f", "g"), ("g", "h")].lookup
    name).map fun bound => .var { name := bound }

/-- Eight bounds are followed to the layer in the last of them. -/
theorem erasedWith_walks_eightBounds :
    let string : Ty := .cls ⟨{}, {}, "java.lang.String", none, []⟩
    Relation.ReflTransGen (Step eightBounds 9) ⟨.var { name := "a" }, 0, 0⟩ ⟨string, 8, 1⟩ ∧
      erasedWith eightBounds (.var { name := "a" }) = "java.lang.String[]" := by
  intro string
  have hwalk : Relation.ReflTransGen (Step eightBounds 9) ⟨.var { name := "a" }, 0, 0⟩
      ⟨string, 8, 1⟩ :=
    .head (.bound _ (.var { name := "b" }) _ _ rfl (by decide)) <|
    .head (.bound _ (.var { name := "c" }) _ _ rfl (by decide)) <|
    .head (.bound _ (.var { name := "d" }) _ _ rfl (by decide)) <|
    .head (.bound _ (.var { name := "e" }) _ _ rfl (by decide)) <|
    .head (.bound _ (.var { name := "f" }) _ _ rfl (by decide)) <|
    .head (.bound _ (.var { name := "g" }) _ _ rfl (by decide)) <|
    .head (.bound _ (.var { name := "h" }) _ _ rfl (by decide)) <|
    .head (.bound _ (.array {} {} false string) _ _ rfl (by decide)) <|
    .head (.layer _ _ _ string _ _) .refl
  obtain ⟨_, _, _, hchain, _⟩ := erasedWith_walks eightBounds (.var { name := "a" })
  exact ⟨hwalk, hchain 9 _ hwalk (by decide) nofun nofun⟩

end ApiSurface.Ty
