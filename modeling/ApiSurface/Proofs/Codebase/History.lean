import ApiSurface.Proofs.Codebase.ByName
import Mathlib.Data.List.Induction

/-!
What tables know of the calls that made them.

A history has every call with the tables that it met. A call counts if it succeeds and does not
declare a package once more. Calls that do not count can be left out. From the others the items of
the tables can be read off: each is what the call that got its number declared, with the types that
were given last (`Tells`). Later calls change nothing else that a declaration depends on, so the
tables at the end can stand for those that a call met (`Reflects`).
-/

namespace ApiSurface

/-- A call and the tables that it met. -/
structure Moment where
  tables : Tables
  call : Call

namespace Moment

def answer (s : Moment) : Except Error Answer := (s.tables.call s.call).1

/-- Whether the call declares a package whose name is known. -/
def isKnown (s : Moment) : Bool :=
  match s.call with
  | .addPackage decl => s.tables.packageIndex[decl.name]?.isSome
  | _ => false

/-- Whether the call succeeds and is not the declaration of a known package. -/
def counts (s : Moment) : Bool := s.answer.isOk && !s.isKnown

/-- The call declares the item, which gets the number `n`. -/
def Declares (s : Moment) (x : Item) (n : Nat) : Prop :=
  s.tables.item? s.call = some x ∧ s.tables.count x.kind = n

end Moment

/-- The type that a call gives to a slot. -/
def Call.given? (slot : TypeSlot) : Call → Option Ty
  | setType target ty => if target = slot then some ty else none
  | _ => none

/-- The type that was given last to a slot. -/
def lastType? (h : List Moment) (slot : TypeSlot) : Option Ty :=
  ((h.map Moment.call).filterMap (Call.given? slot)).getLast?

/-- The declarations in a history, each with the number that it got. -/
def created (h : List Moment) : List (Call × Nat) :=
  h.filterMap fun s =>
    match s.answer with
    | .ok (.id n) => some (s.call, n)
    | _ => none

/-- The parameters of the member `n` with the types that were given to them. -/
def retypedParameters (n : MemberId) (last : TypeSlot → Option Ty)
    (parameters : List ParameterDecl) : List ParameterDecl :=
  parameters.mapIdx fun k p => { p with ty := (last (.parameter n k)).getD p.ty }

/-- The member `n` with the types that were given to it and to its parameters. -/
def MemberEntry.retyped (n : MemberId) (last : TypeSlot → Option Ty) (e : MemberEntry) :
    MemberEntry :=
  { e with
    ty := (last (.member n)).getD e.ty
    parameters := retypedParameters n last e.parameters }

def Item.retyped (n : Nat) (last : TypeSlot → Option Ty) : Item → Item
  | member e => member (e.retyped n last)
  | x => x

theorem mem_created_iff {h : List Moment} {c : Call} {n : Nat} :
    (c, n) ∈ created h ↔ ∃ s ∈ h, s.call = c ∧ s.answer = .ok (.id n) := by
  rw [created, List.mem_filterMap]
  refine exists_congr fun s => and_congr_right fun _ => ?_
  constructor
  · intro hs
    split at hs
    · rename_i hanswer
      cases hs
      exact ⟨rfl, hanswer⟩
    · cases hs
  · rintro ⟨rfl, hanswer⟩
    rw [hanswer]

theorem lastType?_concat (h : List Moment) (s : Moment) (slot : TypeSlot) :
    lastType? (h ++ [s]) slot = (s.call.given? slot).or (lastType? h slot) := by
  rw [lastType?, List.map_append, List.filterMap_append, List.getLast?_append]
  cases hgiven : s.call.given? slot <;> simp [lastType?, hgiven]

namespace MemberEntry

variable {n : MemberId} {last : TypeSlot → Option Ty}

/-- Types that are given to other members are no matter. -/
theorem retyped_congr {last' : TypeSlot → Option Ty}
    (h : ∀ slot, slot.member? = some n → last' slot = last slot) (e : MemberEntry) :
    e.retyped n last' = e.retyped n last := by
  have hparameter : ∀ k, last' (.parameter n k) = last (.parameter n k) := fun k => h _ rfl
  rw [retyped, retyped, retypedParameters, h (.member n) rfl]
  simp only [hparameter]
  rfl

theorem retyped_eq_self (h : ∀ slot, slot.member? = some n → last slot = none) (e : MemberEntry) :
    e.retyped n last = e := by
  have hnone : retypedParameters n (fun _ => none) e.parameters = e.parameters :=
    List.mapIdx_eq_iff.mpr fun k => by simp
  have hcongr : e.retyped n last = e.retyped n fun _ => none := retyped_congr h e
  rw [hcongr, retyped, hnone]
  rfl

/-- Another type for a slot is the type that was given to it last. -/
theorem assign_retyped {slot : TypeSlot} (hslot : slot.member? = some n) (ty : Ty)
    (e : MemberEntry) :
    slot.assign ty (e.retyped n last) = e.retyped n (Function.update last slot (some ty)) := by
  cases slot with
  | member m =>
    cases hslot
    simp [TypeSlot.assign, retyped, retypedParameters]
  | parameter m i =>
    cases hslot
    have hparameters : (retypedParameters n last e.parameters).modify i (fun p => { p with ty }) =
        retypedParameters n (Function.update last (.parameter n i) (some ty)) e.parameters := by
      refine List.ext_getElem? fun k => ?_
      rw [retypedParameters, retypedParameters, List.getElem?_modify, List.getElem?_mapIdx,
        List.getElem?_mapIdx]
      by_cases hk : i = k
      · subst hk
        simp [Function.comp_def]
      · simp [hk, Ne.symm hk]
    rw [TypeSlot.assign, retyped, retyped, ← hparameters]
    simp
  | typeAlias a => cases hslot

end MemberEntry

theorem Item.retyped_eq_self {n : Nat} {last : TypeSlot → Option Ty} {x : Item}
    (h : x.kind = .member → ∀ slot, slot.member? = some n → last slot = none) :
    x.retyped n last = x := by
  cases x with
  | member e => exact congrArg member (e.retyped_eq_self (h rfl))
  | _ => rfl

theorem Item.retyped_update {slot : TypeSlot} {m : MemberId} (hslot : slot.member? = some m)
    (n : Nat) (last : TypeSlot → Option Ty) (ty : Ty) (x : Item) :
    x.retyped n (Function.update last slot (some ty)) =
      if n = m then (x.retyped n last).mapMember (slot.assign ty) else x.retyped n last := by
  cases x with
  | member e =>
    split_ifs with hn
    · rw [hn]
      exact congrArg member (e.assign_retyped hslot ty).symm
    · refine congrArg member (e.retyped_congr fun slot' hslot' => ?_)
      rw [Function.update_of_ne]
      rintro rfl
      exact hn (Option.some.inj (hslot'.symm.trans hslot))
  | _ => exact (ite_self _).symm

namespace Tables

variable {t t' : Tables}

/-- The calls of a list, each with the tables that it meets. -/
def history (t : Tables) : List Call → List Moment
  | [] => []
  | c :: cs => ⟨t, c⟩ :: history (t.call c).2 cs

/-- The calls of a list that count. -/
def kept (t : Tables) (calls : List Call) : List Moment := (t.history calls).filter Moment.counts

theorem history_append (t : Tables) (calls calls' : List Call) :
    t.history (calls ++ calls') = t.history calls ++ (t.run calls).history calls' := by
  induction calls generalizing t with
  | nil => rfl
  | cons c cs ih => exact congrArg (⟨t, c⟩ :: ·) (ih (t.call c).2)

theorem answers_eq (t : Tables) (calls : List Call) :
    t.answers calls = (t.history calls).map Moment.answer := by
  induction calls generalizing t with
  | nil => rfl
  | cons c cs ih => exact congrArg ((t.call c).1 :: ·) (ih (t.call c).2)

/-- Between the tables of a moment and those at the end there are calls. -/
theorem exists_run_of_mem_history {calls : List Call} {s : Moment} (h : s ∈ t.history calls) :
    ∃ before after, s.tables = t.run before ∧ t.run calls = s.tables.run after := by
  induction calls generalizing t with
  | nil => cases h
  | cons c cs ih =>
    rcases List.mem_cons.mp h with rfl | h
    · exact ⟨[], c :: cs, rfl, rfl⟩
    · obtain ⟨before, after, hs, hrun⟩ := ih h
      exact ⟨c :: before, after, hs, hrun⟩

theorem counts_of_known {decl : PackageDecl} {id : PackageId}
    (known : t.packageIndex[decl.name]? = some id) :
    Moment.counts ⟨t, .addPackage decl⟩ = false := by
  simp [Moment.counts, Moment.isKnown, known]

/-- A call that does not count changes nothing. -/
theorem call_of_not_counts {c : Call} (h : Moment.counts ⟨t, c⟩ = false) : (t.call c).2 = t := by
  cases hstep : t.step c with
  | error e => rw [call, hstep]
  | ok r =>
    obtain ⟨answer, t'⟩ := r
    have heffect := step_eq_ok_iff.mp hstep
    rw [Moment.counts, Moment.answer, call_of_effect heffect] at h
    cases c with
    | addPackage decl =>
      cases heffect with
      | knownPackage known => rw [call_of_effect (.knownPackage known)]
      | newPackage fresh => simp [Moment.isKnown, fresh, Except.isOk, Except.toBool] at h
    | _ => cases h

/-- A call that counts declares something, or gives a type to something. -/
theorem exists_change {c : Call} (h : Moment.counts ⟨t, c⟩ = true) :
    ∃ answer t', t.call c = (.ok answer, t') ∧ t.Change c answer t' ∧
      ∀ decl id, c = .addPackage decl → t.packageIndex[decl.name]? ≠ some id := by
  obtain ⟨answer, t', heffect⟩ := exists_effect_of_isOk (Bool.and_eq_true_iff.mp h).1
  refine ⟨answer, t', call_of_effect heffect, heffect.change, ?_⟩
  rintro decl id rfl known
  rw [counts_of_known known] at h
  cases h

theorem kept_cons (t : Tables) (c : Call) (cs : List Call) :
    t.kept (c :: cs) =
      if Moment.counts ⟨t, c⟩ then ⟨t, c⟩ :: (t.call c).2.kept cs else t.kept cs := by
  rw [kept, history, List.filter_cons]
  split_ifs with hcounts
  · rfl
  · rw [call_of_not_counts (Bool.not_eq_true _ ▸ hcounts), kept]

/-- Without the calls that do not count, the others meet the tables that they met, and the same
tables are left. -/
theorem history_kept (t : Tables) (calls : List Call) :
    t.history ((t.kept calls).map Moment.call) = t.kept calls ∧
      t.run ((t.kept calls).map Moment.call) = t.run calls := by
  induction calls generalizing t with
  | nil => exact ⟨rfl, rfl⟩
  | cons c cs ih =>
    rw [kept_cons]
    split_ifs with hcounts
    · obtain ⟨hhistory, hrun⟩ := ih (t.call c).2
      rw [List.map_cons, history, hhistory]
      exact ⟨rfl, hrun⟩
    · rw [Tables.run, call_of_not_counts (Bool.not_eq_true _ ▸ hcounts)]
      exact ih t

/-- What a history of calls that count tells about the items of tables. Each item was declared by
the one call that got its number, and types are given to members that are there. -/
structure Tells (h : List Moment) (t : Tables) : Prop where
  items : ∀ {k : ItemKind} {n : Nat} {x : Item}, (t.items k)[n]? = some x ↔
    ∃ s ∈ h, ∃ y, s.Declares y n ∧ y.kind = k ∧ y.retyped n (lastType? h) = x
  unique : ∀ {s s' : Moment} {x x' : Item} {n : Nat}, s ∈ h → s' ∈ h → s.Declares x n →
    s'.Declares x' n → x.kind = x'.kind → s = s'
  given : ∀ {slot : TypeSlot} {ty : Ty}, lastType? h slot = some ty →
    ∃ m, slot.member? = some m ∧ m < t.count .member

theorem given?_of_item? {c : Call} {x : Item} (item : t.item? c = some x) (slot : TypeSlot) :
    c.given? slot = none := by
  cases c with
  | setType target ty => cases item
  | _ => rfl

namespace Tells

variable {h : List Moment} (told : Tells h t)
include told

/-- An item that was declared before has a smaller number than the next one. -/
theorem ne_count {s : Moment} {y : Item} (hs : s ∈ h) : ¬ s.Declares y (t.count y.kind) := by
  intro hy
  have hitem := told.items.mpr ⟨s, hs, y, hy, rfl, rfl⟩
  exact absurd (List.getElem?_eq_some_iff.mp hitem).1 (Nat.lt_irrefl _)

theorem lastType?_eq_none {slot : TypeSlot} (hslot : slot.member? = some (t.count .member)) :
    lastType? h slot = none := by
  rw [Option.eq_none_iff_forall_ne_some]
  intro ty hty
  obtain ⟨m, hm, hlt⟩ := told.given hty
  obtain rfl := Option.some.inj (hslot.symm.trans hm)
  exact Nat.lt_irrefl _ hlt

theorem declare {c : Call} {x : Item} (item : t.item? c = some x)
    (items : t'.items = t.itemsWith x) : Tells (h ++ [⟨t, c⟩]) t' := by
  have hlast : lastType? (h ++ [⟨t, c⟩]) = lastType? h := by
    funext slot
    rw [lastType?_concat, given?_of_item? item, Option.none_or]
  constructor
  case unique =>
    intro s s' y y' n hs hs' hy hy' hkind
    rcases List.mem_append.mp hs with hs | hs <;> rcases List.mem_append.mp hs' with hs' | hs'
    · exact told.unique hs hs' hy hy' hkind
    · obtain rfl := List.mem_singleton.mp hs'
      obtain rfl := hy'.2
      exact absurd (hkind ▸ hy) (told.ne_count hs)
    · obtain rfl := List.mem_singleton.mp hs
      obtain rfl := hy.2
      exact absurd (hkind ▸ hy') (told.ne_count hs')
    · exact (List.mem_singleton.mp hs).trans (List.mem_singleton.mp hs').symm
  case given =>
    rw [hlast]
    intro slot ty hty
    obtain ⟨m, hm, hlt⟩ := told.given hty
    rw [count_of_items items]
    exact ⟨m, hm, Nat.lt_of_lt_of_le hlt (Nat.le_add_right _ _)⟩
  case items =>
    intro k n z
    rw [hlast, items, getElem?_itemsWith]
    have hself : x.retyped (t.count x.kind) (lastType? h) = x := by
      refine Item.retyped_eq_self fun hkind slot hslot => told.lastType?_eq_none ?_
      rw [hslot, hkind]
    -- at the new number there is the new item only, elsewhere it declares nothing
    split_ifs with hnew
    · obtain ⟨rfl, rfl⟩ := hnew
      constructor
      · rintro ⟨⟩
        exact ⟨_, List.mem_concat_self, x, ⟨item, rfl⟩, rfl, hself⟩
      · rintro ⟨s, hs, y, hy, hkind, rfl⟩
        rcases List.mem_append.mp hs with hs | hs
        · exact absurd (hkind ▸ hy) (told.ne_count hs)
        · obtain rfl := List.mem_singleton.mp hs
          obtain rfl := Option.some.inj (item.symm.trans hy.1)
          rw [hself]
    · rw [told.items]
      constructor
      · rintro ⟨s, hs, hy⟩
        exact ⟨s, List.mem_append_left _ hs, hy⟩
      · rintro ⟨s, hs, y, hy, rfl, hz⟩
        rcases List.mem_append.mp hs with hs | hs
        · exact ⟨s, hs, y, hy, rfl, hz⟩
        · obtain rfl := List.mem_singleton.mp hs
          obtain rfl := Option.some.inj (item.symm.trans hy.1)
          exact absurd ⟨rfl, hy.2.symm⟩ hnew

theorem retype {slot : TypeSlot} {m : MemberId} {e : MemberEntry} (ty : Ty)
    (target : slot.member? = some m) (he : t.members[m]? = some e) :
    Tells (h ++ [⟨t, .setType slot ty⟩]) (t.changeMember m (slot.assign ty)) := by
  have hlast : lastType? (h ++ [⟨t, .setType slot ty⟩]) =
      Function.update (lastType? h) slot (some ty) := by
    funext slot'
    rw [lastType?_concat, Call.given?, Function.update_apply]
    by_cases hslot : slot = slot'
    · rw [if_pos hslot, if_pos hslot.symm, Option.some_or]
    · rw [if_neg hslot, if_neg (Ne.symm hslot), Option.none_or]
  have hmem : ∀ {s : Moment} {y : Item} {n : Nat}, s ∈ h ++ [⟨t, .setType slot ty⟩] →
      s.Declares y n → s ∈ h := by
    intro s y n hs hy
    rcases List.mem_append.mp hs with hs | hs
    · exact hs
    · obtain rfl := List.mem_singleton.mp hs
      cases hy.1
  constructor
  case unique => exact fun hs hs' hy hy' => told.unique (hmem hs hy) (hmem hs' hy') hy hy'
  case given =>
    rw [hlast]
    intro slot' ty' hty
    rw [count_changeMember]
    rw [Function.update_apply] at hty
    split_ifs at hty with hslot
    · rw [hslot, count_member]
      exact ⟨m, target, (Array.getElem?_eq_some_iff.mp he).1⟩
    · exact told.given hty
  case items =>
    intro k n z
    rw [hlast, getElem?_changeMember, Option.map_eq_some_iff]
    simp only [told.items, Item.retyped_update target]
    constructor
    · rintro ⟨_, ⟨s, hs, y, hy, hkind, rfl⟩, hz⟩
      exact ⟨s, List.mem_append_left _ hs, y, hy, hkind, hz⟩
    · rintro ⟨s, hs, y, hy, hkind, hz⟩
      exact ⟨_, ⟨s, hmem hs hy, y, hy, hkind, rfl⟩, hz⟩

end Tells

/-- The calls of a list that count tell what the items of the tables are. -/
theorem tells_run (calls : List Call) : Tells (kept {} calls) (run {} calls) := by
  induction calls using List.reverseRecOn with
  | nil =>
    constructor
    · intro k n x
      cases k <;> simp [items, kept, history, run]
    · intro s s' x x' n hs
      cases hs
    · intro slot ty hty
      cases hty
  | append_singleton cs c ih =>
    -- a call that does not count leaves the tables and the history as they are
    have hkept : kept {} (cs ++ [c]) = kept {} cs ++ (run {} cs).kept [c] := by
      rw [kept, history_append, List.filter_append, kept, kept]
    rw [hkept, kept_cons, run_append]
    split_ifs with hcounts
    · obtain ⟨answer, t', hcall, hchange, hnew⟩ := exists_change hcounts
      rw [run, run, hcall]
      cases hchange with
      | known known => exact absurd known (hnew _ _ rfl)
      | declare item _ items => exact ih.declare item items
      | retype target he _ => exact ih.retype _ target he
    · rw [run, run, call_of_not_counts (Bool.not_eq_true _ ▸ hcounts)]
      exact (List.append_nil (kept {} cs)).symm ▸ ih

end Tables

namespace Moment

/-- A call that counts is answered by a number if it declares something. -/
theorem answer_eq_id_iff {s : Moment} (h : s.counts = true) {n : Nat} :
    s.answer = .ok (.id n) ↔ ∃ x, s.Declares x n := by
  obtain ⟨t, c⟩ := s
  obtain ⟨answer, t', hcall, hchange, hnew⟩ := Tables.exists_change h
  rw [Moment.answer, hcall]
  cases hchange with
  | known known => exact absurd known (hnew _ _ rfl)
  | declare item =>
    constructor
    · rintro ⟨⟩
      exact ⟨_, item, rfl⟩
    · rintro ⟨y, hy, rfl⟩
      obtain rfl := Option.some.inj (item.symm.trans hy)
      rfl
  | retype => exact iff_of_false nofun fun ⟨_, hx, _⟩ => nomatch hx

end Moment

/-- The call that declares an item. Of a member more is known than was declared. -/
def Item.declaration? : Item → Option Call
  | package decl => some (.addPackage decl)
  | cls decl p container => some (.addClass p container decl)
  | member _ => none
  | typeAlias decl p => some (.addAlias p decl)

theorem Item.retyped_eq_iff {x y : Item} {c : Call} (hx : x.declaration? = some c) (n : Nat)
    (last : TypeSlot → Option Ty) : y.retyped n last = x ↔ y = x := by
  cases y with
  | member e =>
    constructor <;> rintro rfl <;> cases hx
  | _ => rfl

namespace Tables

variable {t t' t'' : Tables}

theorem call_eq_of_declaration? {c c' : Call} {x : Item} (hx : x.declaration? = some c)
    (item : t.item? c' = some x) : c' = c := by
  cases c' with
  | addPackage decl =>
    cases item
    exact Option.some.inj hx
  | addClass p container decl =>
    obtain ⟨_, rfl⟩ := item?_addClass.mp item
    exact Option.some.inj hx
  | addMember d decl =>
    obtain ⟨_, ty, _, rfl⟩ := item?_addMember.mp item
    cases hx
  | addAlias p decl =>
    obtain ⟨_, rfl⟩ := item?_addAlias.mp item
    exact Option.some.inj hx
  | setType slot ty => cases item

theorem item_eq_of_declaration? {c : Call} {x y : Item} (hx : x.declaration? = some c)
    (item : t.item? c = some y) : y = x := by
  cases x with
  | package decl =>
    cases hx
    exact (Option.some.inj item).symm
  | cls decl p container =>
    cases hx
    exact (item?_addClass.mp item).2.symm
  | member e => cases hx
  | typeAlias decl p =>
    cases hx
    exact (item?_addAlias.mp item).2.symm

/-- What is no member stays as it was declared. -/
theorem getElem?_items_run (t : Tables) (calls : List Call) {k : ItemKind} (hk : k ≠ .member)
    {n : Nat} {x : Item} (hx : (t.items k)[n]? = some x) :
    ((t.run calls).items k)[n]? = some x := by
  refine run_keeps (P := fun t => (t.items k)[n]? = some x) (fun h heffect => ?_) calls hx
  cases heffect.change with
  | known _ => exact h
  | declare _ _ items => exact getElem?_of_items items h
  | retype _ _ _ =>
    cases k with
    | member => exact absurd rfl hk
    | _ => exact h

/-- The entry of the member `n` is what was declared in the class `c`, but for the types that were
given last to the member and to its parameters. A constructor that was declared without a name has
the last segment of the name of its class. -/
structure DeclaredAs (t : Tables) (h : List Moment) (n : MemberId) (c : ClassId) (decl : MemberDecl)
    (e : MemberEntry) : Prop where
  kind : e.kind = decl.kind
  name : decl.kind ≠ .constructor ∨ decl.name ≠ "" → e.name = decl.name
  className : decl.kind = .constructor → decl.name = "" →
    Text.IsLastSegment (t.classAt c).decl.name e.name
  modifiers : e.modifiers = decl.modifiers
  documentation : e.documentation = decl.documentation
  typeParameters : e.typeParameters = decl.typeParameters
  declaredIn : e.declaredIn = c
  parameters : e.parameters = retypedParameters n (lastType? h) decl.parameters
  ty : ∀ ty, (lastType? h (.member n)).or decl.ty = some ty → e.ty = ty
  classTy : lastType? h (.member n) = none → decl.ty = none →
    ∀ p, e.ty.alike (.cls (t.classTy p c)) = true
  erased : t.erasedParameters e = (retypedParameters n (lastType? h) decl.parameters).map fun p =>
    p.ty.erasedWith (t.firstBound e)

/-- The tables have what the calls of a history declared, under the numbers that they got, with the
types that were given last. -/
structure Reflects (t : Tables) (h : List Moment) : Prop where
  package : ∀ n decl, (∃ e, t.packages[n]? = some e ∧ e.decl = decl) ↔
    (.addPackage decl, n) ∈ created h
  cls : ∀ n package container decl, (∃ e, t.classes[n]? = some e ∧ e.decl = decl ∧
    e.package = package ∧ e.container = container) ↔
      (.addClass package container decl, n) ∈ created h
  typeAlias : ∀ n package decl, (∃ e, t.aliases[n]? = some e ∧ e.decl = decl ∧
    e.package = package) ↔ (.addAlias package decl, n) ∈ created h
  member : ∀ n, n < t.members.size ↔ ∃ c decl, (.addMember c decl, n) ∈ created h
  unique : ∀ n c c' decl decl', (.addMember c decl, n) ∈ created h →
    (.addMember c' decl', n) ∈ created h → c = c' ∧ decl = decl'
  declared : ∀ n c decl, (.addMember c decl, n) ∈ created h →
    ∃ e, t.members[n]? = some e ∧ t.DeclaredAs h n c decl e

/-- What was declared under a number is the item of that number. -/
theorem items_eq_some_iff {x : Item} {c : Call} (hx : x.declaration? = some c) (calls : List Call)
    (n : Nat) : ((run {} calls).items x.kind)[n]? = some x ↔ (c, n) ∈ created (kept {} calls) := by
  rw [(tells_run calls).items, mem_created_iff]
  constructor
  · rintro ⟨s, hs, y, hy, _, hretyped⟩
    obtain rfl := (Item.retyped_eq_iff hx _ _).mp hretyped
    have hanswer := (Moment.answer_eq_id_iff (List.mem_filter.mp hs).2).mpr ⟨y, hy⟩
    exact ⟨s, hs, call_eq_of_declaration? hx hy.1, hanswer⟩
  · rintro ⟨s, hs, rfl, hanswer⟩
    obtain ⟨y, hy⟩ := (Moment.answer_eq_id_iff (List.mem_filter.mp hs).2).mp hanswer
    obtain rfl := item_eq_of_declaration? hx hy.1
    exact ⟨s, hs, y, hy, rfl, (Item.retyped_eq_iff hx _ _).mpr rfl⟩

theorem created_addMember_iff {calls : List Call} {n : MemberId} {c : ClassId} {decl : MemberDecl} :
    (.addMember c decl, n) ∈ created (kept {} calls) ↔ ∃ s ∈ kept {} calls,
      s.call = .addMember c decl ∧ c < s.tables.classes.size ∧
      ∃ ty, s.tables.declaredType c decl = .ok ty ∧
        s.Declares (.member (s.tables.declaredEntry c decl ty)) n := by
  rw [mem_created_iff]
  refine exists_congr fun s => and_congr_right fun hs => and_congr_right fun hcall => ?_
  rw [Moment.answer_eq_id_iff (List.mem_filter.mp hs).2]
  constructor
  · rintro ⟨x, hx, hn⟩
    have item := hx
    rw [hcall] at item
    obtain ⟨hc, ty, typed, rfl⟩ := item?_addMember.mp item
    exact ⟨hc, ty, typed, hx, hn⟩
  · rintro ⟨_, ty, _, hdeclares⟩
    exact ⟨_, hdeclares⟩

theorem exists_declaredAs {calls : List Call} {n : MemberId} {c : ClassId} {decl : MemberDecl}
    (h : (.addMember c decl, n) ∈ created (kept {} calls)) :
    ∃ e, (run {} calls).members[n]? = some e ∧
      (run {} calls).DeclaredAs (kept {} calls) n c decl e := by
  obtain ⟨s, hs, _, hc, ty, typed, hdeclares⟩ := created_addMember_iff.mp h
  -- the class has not changed since the member was declared
  obtain ⟨before, after, hbefore, hafter⟩ := exists_run_of_mem_history (List.mem_filter.mp hs).1
  have hlinked : s.tables.Linked := hbefore ▸ linked_run before
  have hembeds : s.tables.Embeds .same (run {} calls) :=
    hafter ▸ embeds_same fun hk hx => s.tables.getElem?_items_run after hk hx
  have hdecl : ((run {} calls).classAt c).decl = (s.tables.classAt c).decl :=
    hembeds.decl_classAt hc
  have hitem := (tells_run calls).items.mpr ⟨s, hs, _, hdeclares, rfl, rfl⟩
  rw [Item.kind, getElem?_member] at hitem
  obtain ⟨e, he, heq⟩ := Option.map_eq_some_iff.mp hitem
  obtain rfl := Item.member.inj heq
  refine ⟨_, he, ?_⟩
  constructor
  case kind => rfl
  case name =>
    intro hnamed
    exact if_neg (not_and_or.mpr hnamed)
  case className =>
    intro hkind hname
    rw [Text.isLastSegment_iff, hdecl]
    exact if_pos ⟨hkind, hname⟩
  case modifiers => rfl
  case documentation => rfl
  case typeParameters => rfl
  case declaredIn => rfl
  case parameters => rfl
  case ty =>
    intro ty' hty
    change (lastType? (kept {} calls) (.member n)).getD ty = ty'
    cases hlast : lastType? (kept {} calls) (.member n) with
    | some u =>
      rw [hlast, Option.some_or] at hty
      exact Option.some.inj hty
    | none =>
      rw [hlast, Option.none_or] at hty
      rw [declaredType, hty] at typed
      exact (Except.ok.inj typed).symm
  case classTy =>
    intro hlast hnone p
    have hty : ty = .cls (s.tables.classTy ⟨0, [s.tables.members.size]⟩ c) := by
      rw [declaredType, hnone] at typed
      cases hkind : decl.kind <;> rw [hkind] at typed <;> cases typed
      rfl
    change ((lastType? (kept {} calls) (.member n)).getD ty).alike _ = true
    rw [hlast, Option.getD_none, hty, Ty.alike_iff, Ty.plain, Ty.plain]
    exact congrArg Ty.cls (hembeds.plain_classTy hlinked (linked_run calls) _ p hc).symm
  case erased => rfl

theorem reflects_run (calls : List Call) : (run {} calls).Reflects (kept {} calls) := by
  constructor
  case package =>
    intro n decl
    rw [← items_eq_some_iff (x := .package decl) rfl, Item.kind, getElem?_package,
      Option.map_eq_some_iff]
    simp [PackageEntry.item]
  case cls =>
    intro n p container decl
    rw [← items_eq_some_iff (x := .cls decl p container) rfl, Item.kind, getElem?_cls,
      Option.map_eq_some_iff]
    simp [ClassEntry.item]
  case typeAlias =>
    intro n p decl
    rw [← items_eq_some_iff (x := .typeAlias decl p) rfl, Item.kind, getElem?_typeAlias,
      Option.map_eq_some_iff]
    simp [AliasEntry.item]
  case member =>
    intro n
    constructor
    · intro hn
      have hitem := ((run {} calls).getElem?_member n).trans
        (congrArg _ (Array.getElem?_eq_getElem hn))
      obtain ⟨s, hs, y, hy, hkind, _⟩ := (tells_run calls).items.mp hitem
      obtain ⟨c, decl, hcall⟩ := Call.exists_addMember (hkind ▸ (item?_spec hy.1).1)
      have hanswer := (Moment.answer_eq_id_iff (List.mem_filter.mp hs).2).mpr ⟨y, hy⟩
      exact ⟨c, decl, mem_created_iff.mpr ⟨s, hs, hcall, hanswer⟩⟩
    · rintro ⟨c, decl, h⟩
      obtain ⟨e, he, _⟩ := exists_declaredAs h
      exact (Array.getElem?_eq_some_iff.mp he).1
  case unique =>
    intro n c c' decl decl' h h'
    obtain ⟨s, hs, hcall, _, ty, _, hdeclares⟩ := created_addMember_iff.mp h
    obtain ⟨s', hs', hcall', _, ty', _, hdeclares'⟩ := created_addMember_iff.mp h'
    obtain rfl := (tells_run calls).unique hs hs' hdeclares hdeclares' rfl
    exact Call.addMember.inj (hcall.symm.trans hcall')
  case declared => exact fun n c decl => exists_declaredAs

theorem DeclaredAs.name_eq {h : List Moment} {n : MemberId} {c : ClassId} {decl : MemberDecl}
    {e : MemberEntry} (he : t.DeclaredAs h n c decl e) : e.name = t.declaredName c decl := by
  rw [declaredName]
  split_ifs with hnameless
  · exact Text.isLastSegment_iff.mp (he.className hnameless.1 hnameless.2)
  · exact he.name (not_and_or.mp hnameless)

theorem DeclaredAs.plain_eq {h h' : List Moment} {n : MemberId} {c : ClassId} {decl : MemberDecl}
    {e e' : MemberEntry} (he : t.DeclaredAs h n c decl e) (he' : t'.DeclaredAs h' n c decl e')
    (hlast : lastType? h' = lastType? h) (ht : t.Linked) (ht' : t'.Linked)
    (hembeds : t.Embeds .same t') (hc : c < t.classes.size) :
    (Item.member e').plain = (Item.member e).plain := by
  have hname : t'.declaredName c decl = t.declaredName c decl := by
    have hdecl : (t'.classAt c).decl = (t.classAt c).decl := hembeds.decl_classAt hc
    rw [declaredName, declaredName, hdecl]
  have hty : e'.ty.plain = e.ty.plain := by
    cases hgiven : (lastType? h (.member n)).or decl.ty with
    | some ty => rw [he.ty ty hgiven, he'.ty ty (hlast ▸ hgiven)]
    | none =>
      obtain ⟨hnone, hdecl⟩ := Option.or_eq_none_iff.mp hgiven
      have hplain := (Ty.alike_iff _ _).mp (he.classTy hnone hdecl {})
      have hplain' := (Ty.alike_iff _ _).mp (he'.classTy (hlast ▸ hnone) hdecl {})
      rw [hplain, hplain', Ty.plain, Ty.plain]
      exact congrArg Ty.cls (hembeds.plain_classTy ht ht' {} {} hc)
  rw [Item.plain, Item.plain, hty, he.kind, he'.kind, he.name_eq, he'.name_eq, hname, he.modifiers,
    he'.modifiers, he.documentation, he'.documentation, he.typeParameters, he'.typeParameters,
    he.parameters, he'.parameters, he.declaredIn, he'.declaredIn, hlast]

section

variable {calls calls' : List Call}
  (hcreated : ∀ x, x ∈ created (kept {} calls') ↔ x ∈ created (kept {} calls))

include hcreated in
theorem items_of_created {k : ItemKind} (hk : k ≠ .member) (n : Nat) :
    ((run {} calls').items k)[n]? = ((run {} calls).items k)[n]? := by
  refine Option.ext fun x => ?_
  by_cases hkind : x.kind = k
  · subst hkind
    obtain ⟨c, hc⟩ : ∃ c, x.declaration? = some c := by
      cases x with
      | member e => exact absurd rfl hk
      | _ => exact ⟨_, rfl⟩
    rw [items_eq_some_iff hc, items_eq_some_iff hc, hcreated]
  · exact iff_of_false (fun hx => hkind (kind_of_getElem? hx)) fun hx => hkind (kind_of_getElem? hx)

variable (hlast : lastType? (kept {} calls') = lastType? (kept {} calls))

include hcreated hlast in
/-- Tables are determined by what was declared under which number and by the types that were given
last. -/
theorem mirrors_of_created : (run {} calls).Mirrors .same (run {} calls') := by
  have hlinked := linked_run calls
  have hlinked' := linked_run calls'
  refine mirrors_same hlinked hlinked' fun k n => ?_
  by_cases hk : k = .member
  · have hmember := (reflects_run calls).member n
    have hmember' := (reflects_run calls').member n
    simp only [hcreated] at hmember'
    rw [hk, getElem?_member, getElem?_member]
    by_cases hn : n < (run {} calls).members.size
    · obtain ⟨c, decl, h⟩ := hmember.mp hn
      obtain ⟨e, he, has⟩ := exists_declaredAs h
      obtain ⟨e', he', has'⟩ := exists_declaredAs ((hcreated _).mpr h)
      have hc : c < (run {} calls).classes.size := by
        rw [← has.declaredIn, ← memberAt_eq he]
        exact hlinked.declaredIn_lt hn
      have hembeds : (run {} calls).Embeds .same (run {} calls') :=
        embeds_same fun hk hx => (items_of_created hcreated hk _).trans hx
      rw [he, he']
      exact congrArg some (has.plain_eq has' hlast hlinked hlinked' hembeds hc)
    · have hn' : ¬ n < (run {} calls').members.size := fun h => hn (hmember.mpr (hmember'.mp h))
      rw [Array.getElem?_eq_none (Nat.le_of_not_lt hn),
        Array.getElem?_eq_none (Nat.le_of_not_lt hn')]
  · rw [items_of_created hcreated hk]

end

end Tables

/-- A codebase shows its calls. Those that fail and those that declare known packages can be left
out. What the others declared is there under the numbers that they got, with the types that were
given last; a constructor that was declared without a name has the last segment of the name of its
class. Calls that declare the same under the same numbers, and give the same types last, build the
same in whatever order. -/
theorem Codebase.build_reflects (number : Nat) (settings : Settings) (calls : List Call) :
    let kept := Tables.kept {} calls
    Tables.answers {} calls = (Tables.history {} calls).map Moment.answer ∧
      Tables.answers {} (kept.map Moment.call) = kept.map Moment.answer ∧
      build number settings (kept.map Moment.call) = build number settings calls ∧
      (build number settings calls).tables.Reflects kept ∧
      ∀ calls', (∀ x, x ∈ created (Tables.kept {} calls') ↔ x ∈ created kept) →
        lastType? (Tables.kept {} calls') = lastType? kept →
        (build number settings calls).SameByName .same (build number settings calls') := by
  intro kept
  obtain ⟨hhistory, hrun⟩ := Tables.history_kept {} calls
  refine ⟨Tables.answers_eq {} calls, ?_, congrArg (Codebase.mk number settings) hrun,
    Tables.reflects_run calls, fun calls' hcreated hlast => ?_⟩
  · rw [Tables.answers_eq]
    exact congrArg (List.map Moment.answer) hhistory
  · exact sameByName_of_mirrors (Tables.mirrors_of_created hcreated hlast)

/-- Types that are given early and again, among calls that fail and a package that is declared
twice. -/
theorem Codebase.build_reflects_retyped :
    let int : Ty := .primitive {} {} .int
    let var : Ty := .var { name := "T" }
    let method : MemberDecl := { name := "m", ty := some var, parameters := [{ ty := var }] }
    let calls : List Call :=
      [.addPackage { name := "p" }, .addClass 1 none { name := "p.C" },
        .addClass 0 none { name := "p.C", typeParameters := [{ name := "T" }] },
        .addMember 0 method, .setType (.parameter 0 0) int, .addMember 0 { kind := .constructor },
        .setType (.member 0) var, .setType (.member 2) int, .setType (.member 0) int]
    let calls' : List Call :=
      [.addPackage { name := "p" }, .addPackage { name := "p", documentation := "again" },
        .addClass 0 none { name := "p.C", typeParameters := [{ name := "T" }] },
        .addMember 0 method, .setType (.parameter 0 0) var, .setType (.member 0) int,
        .addMember 0 { name := "n" }, .addMember 0 { kind := .constructor },
        .setType (.parameter 0 0) int]
    let kept := Tables.kept {} calls
    let kept' := Tables.kept {} calls'
    (∀ x, x ∈ created kept' ↔ x ∈ created kept) ∧ lastType? kept' = lastType? kept ∧
      (build 0 {} calls).SameByName .same (build 0 {} calls') := by
  intro int var method calls calls' kept kept'
  have hcreated : created kept' = created kept := by decide +kernel
  have hlast : lastType? kept' = lastType? kept := by
    have hcalls : kept.map Moment.call =
        [.addPackage { name := "p" },
          .addClass 0 none { name := "p.C", typeParameters := [{ name := "T" }] },
          .addMember 0 method, .setType (.parameter 0 0) int, .addMember 0 { kind := .constructor },
          .setType (.member 0) var, .setType (.member 0) int] := by decide +kernel
    have hcalls' : kept'.map Moment.call =
        [.addPackage { name := "p" },
          .addClass 0 none { name := "p.C", typeParameters := [{ name := "T" }] },
          .addMember 0 method, .setType (.parameter 0 0) var, .setType (.member 0) int,
          .addMember 0 { kind := .constructor }, .setType (.parameter 0 0) int] := by decide +kernel
    funext slot
    rw [lastType?, lastType?, hcalls, hcalls']
    by_cases hmember : TypeSlot.member 0 = slot
    · subst hmember
      rfl
    · by_cases hparameter : TypeSlot.parameter 0 0 = slot
      · subst hparameter
        rfl
      · simp [List.filterMap, Call.given?, hmember, hparameter]
  have hsame : ∀ x, x ∈ created kept' ↔ x ∈ created kept := fun x => by rw [hcreated]
  exact ⟨hsame, hlast, (build_reflects 0 {} calls).2.2.2.2 calls' hsame hlast⟩

/-- A constructor that was declared without a name does not stay without one. -/
theorem Codebase.build_nameless :
    let decl : MemberDecl := { kind := .constructor }
    let calls : List Call :=
      [.addPackage { name := "p" }, .addClass 0 none { name := "p.C" }, .addMember 0 decl]
    (.addMember 0 decl, 0) ∈ created (Tables.kept {} calls) ∧
      decl.name = "" ∧ ((build 0 {} calls).tables.memberAt 0).name = "C" := by
  decide +kernel

end ApiSurface
