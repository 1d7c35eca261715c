import ApiSurface.Proofs.Codebase.Items
import ApiSurface.Ty.Plain
import Mathlib.Data.List.Sort
import Mathlib.Logic.Equiv.Basic

/-!
Tables whose items have other numbers.

A renumbering permutes the numbers of the items of each kind. `Mirrors` relates tables to tables
with the same items under other numbers: references lead to the items that they led to, and what is
in one list is in the same order. Indexes and lists then follow. The type of a constructor that was
declared without one may be another instance.

Calls with renumbered references do the same to mirrored tables, and get renumbered answers.
-/

namespace ApiSurface

/-- New numbers for the items of each kind. -/
abbrev Renumbering := ItemKind → Equiv.Perm Nat

/-- All items keep their numbers. -/
def Renumbering.same : Renumbering := fun _ => .refl Nat

namespace Item

/-- The item with new numbers for what it refers to. -/
def renumber (ρ : Renumbering) : Item → Item
  | package decl => package decl
  | cls decl p container => cls decl (ρ .package p) (container.map (ρ .cls))
  | member e => member { e with declaredIn := ρ .cls e.declaredIn }
  | typeAlias decl p => typeAlias decl (ρ .package p)

/-- The item without the identity of its type. -/
def plain : Item → Item
  | member e => member { e with ty := e.ty.plain }
  | x => x

@[simp] theorem kind_renumber (ρ : Renumbering) (x : Item) : (x.renumber ρ).kind = x.kind := by
  cases x <;> rfl

@[simp] theorem kind_plain (x : Item) : x.plain.kind = x.kind := by
  cases x <;> rfl

@[simp] theorem name?_renumber (ρ : Renumbering) (x : Item) : (x.renumber ρ).name? = x.name? := by
  cases x <;> rfl

@[simp] theorem name?_plain (x : Item) : x.plain.name? = x.name? := by
  cases x <;> rfl

@[simp] theorem list?_plain (x : Item) : x.plain.list? = x.list? := by
  cases x <;> rfl

theorem kind_eq_of_plain {x x' : Item} (h : x'.plain = x.plain) : x'.kind = x.kind := by
  rw [← kind_plain, h, kind_plain]

theorem name?_eq_of_plain {x x' : Item} (h : x'.plain = x.plain) : x'.name? = x.name? := by
  rw [← name?_plain, h, name?_plain]

@[simp] theorem renumber_same (x : Item) : x.renumber .same = x := by
  cases x with
  | cls decl p container => cases container <;> rfl
  | _ => rfl

/-- An item stays as it is if what it refers to keeps its number. -/
theorem renumber_eq_self {ρ : Renumbering} {x : Item} (h : ∀ r ∈ x.refs, ρ r.1 r.2 = r.2) :
    x.renumber ρ = x := by
  cases x with
  | package decl => rfl
  | cls decl p container =>
    obtain ⟨hp, hcontainer⟩ := List.forall_mem_cons.mp h
    cases container with
    | none => exact congrArg (cls decl · none) hp
    | some outer =>
      have houter := List.forall_mem_singleton.mp hcontainer
      exact congrArg₂ (cls decl · <| some ·) hp houter
  | member e =>
    have hc := List.forall_mem_singleton.mp h
    exact congrArg (fun c => member { e with declaredIn := c }) hc
  | typeAlias decl p =>
    have hp := List.forall_mem_singleton.mp h
    exact congrArg (typeAlias decl) hp

end Item

/-- The list of the container with its new number. -/
def ChildList.renumber (ρ : Renumbering) : ChildList → ChildList
  | classes p => classes (ρ .package p)
  | nested c => nested (ρ .cls c)
  | members c => members (ρ .cls c)
  | aliases p => aliases (ρ .package p)

@[simp] theorem ChildList.kind_renumber (ρ : Renumbering) (l : ChildList) :
    (l.renumber ρ).kind = l.kind := by
  cases l <;> rfl

theorem ChildList.renumber_injective (ρ : Renumbering) : Function.Injective (renumber ρ) := by
  intro l l' h
  cases l <;> cases l' <;> simp_all [renumber]

theorem Item.list?_renumber (ρ : Renumbering) (x : Item) :
    (x.renumber ρ).list? = x.list?.map (ChildList.renumber ρ) := by
  cases x with
  | cls decl p container => cases container <;> rfl
  | _ => rfl

def TypeSlot.renumber (ρ : Renumbering) : TypeSlot → TypeSlot
  | member m => member (ρ .member m)
  | parameter m index => parameter (ρ .member m) index
  | typeAlias a => typeAlias (ρ .typeAlias a)

theorem Item.plain_member_eq_iff {ρ : Renumbering} {e e' : MemberEntry} :
    (member e').plain = ((member e).renumber ρ).plain ↔
      e' = { e with declaredIn := ρ .cls e.declaredIn, ty := e'.ty } ∧
        e'.ty.plain = e.ty.plain := by
  obtain ⟨_, _, _, _, _, _, _, _⟩ := e
  obtain ⟨_, _, _, _, _, _, _, _⟩ := e'
  simp only [plain, renumber, member.injEq, MemberEntry.mk.injEq]
  tauto

namespace TypeSlot

variable {ρ : Renumbering}

theorem member?_renumber (slot : TypeSlot) :
    (slot.renumber ρ).member? = slot.member?.map (ρ .member) := by
  cases slot <;> rfl

theorem isIn_renumber {e e' : MemberEntry}
    (h : (Item.member e').plain = ((Item.member e).renumber ρ).plain) {slot : TypeSlot} :
    (slot.renumber ρ).isIn e' = slot.isIn e := by
  rw [(Item.plain_member_eq_iff.mp h).1]
  cases slot <;> rfl

/-- Entries that differ in the identity of their type still do with the same type in one slot. -/
theorem plain_assign (slot : TypeSlot) (ty : Ty) (e e' : MemberEntry)
    (h : (Item.member e').plain = ((Item.member e).renumber ρ).plain) :
    (Item.member ((slot.renumber ρ).assign ty e')).plain =
      ((Item.member (slot.assign ty e)).renumber ρ).plain := by
  obtain ⟨he', hty⟩ := Item.plain_member_eq_iff.mp h
  rw [he', Item.plain_member_eq_iff]
  cases slot with
  | member m => exact ⟨rfl, rfl⟩
  | parameter m index => exact ⟨rfl, hty⟩
  | typeAlias a => exact ⟨rfl, hty⟩

end TypeSlot

namespace Call

/-- The call with new numbers for what it uses. -/
def renumber (ρ : Renumbering) : Call → Call
  | addPackage decl => addPackage decl
  | addClass p container decl => addClass (ρ .package p) (container.map (ρ .cls)) decl
  | addMember c decl => addMember (ρ .cls c) decl
  | addAlias p decl => addAlias (ρ .package p) decl
  | setType slot ty => setType (slot.renumber ρ) ty

/-- The answer to a call with a new number for what it declared. -/
def renumberAnswer (ρ : Renumbering) (c : Call) : Answer → Answer
  | .id n => .id (c.kind?.elim n (ρ · n))
  | .done => .done

@[simp] theorem renumber_same (c : Call) : c.renumber .same = c := by
  cases c with
  | addClass p container decl => cases container <;> rfl
  | setType slot ty => cases slot <;> rfl
  | _ => rfl

@[simp] theorem renumberAnswer_same (c : Call) (answer : Answer) :
    c.renumberAnswer .same answer = answer := by
  cases answer with
  | id n => cases c <;> rfl
  | done => rfl

end Call

namespace Tables

variable {ρ : Renumbering} {t t' : Tables}

/-! The type of a class without a bound on its outer types. -/

/-- The type of a class inside `outer`. -/
def classTyInside (t : Tables) (p : Ident) (c : ClassId) (outer : Option ClassTy) : ClassTy where
  id := p
  mods := { id := p, nullability := .nonNull }
  name := (t.classAt c).decl.name
  outer := outer
  args := (t.classAt c).decl.typeParameters.mapIdx fun k parameter =>
    .var { id := p.child (k + 1), mods := { id := p.child (k + 1) }, name := parameter.name }

/-- The container inside whose type the type of a class lies. -/
def outerClass? (t : Tables) (c : ClassId) : Option ClassId :=
  if (t.classAt c).decl.modifiers.isStatic then none else (t.classAt c).container

namespace Linked

variable (h : t.Linked)
include h

theorem outerClass?_lt {c outer : Nat} (houter : t.outerClass? c = some outer) : outer < c := by
  rw [outerClass?, Option.ite_none_left_eq_some] at houter
  exact (h.container_lt houter.2).1

theorem classTyWithin_step (p : Ident) {n c : Nat} (hc : c ≤ n) :
    t.classTyWithin p n c =
      t.classTyInside p c ((t.outerClass? c).map (t.classTyWithin (p.child 0) (n - 1))) := by
  cases n with
  | zero =>
    have hnone : t.outerClass? c = none := by
      by_contra hne
      obtain ⟨outer, houter⟩ := Option.ne_none_iff_exists'.mp hne
      exact Nat.not_lt_zero outer (Nat.lt_of_lt_of_le (h.outerClass?_lt houter) hc)
    rw [hnone]
    unfold classTyWithin
    rfl
  | succ n =>
    rw [outerClass?]
    unfold classTyWithin classTyInside
    generalize t.classAt c = e
    dsimp only
    cases e.container with
    | none => cases e.decl.modifiers.isStatic <;> rfl
    | some outer => cases e.decl.modifiers.isStatic <;> rfl

theorem classTyWithin_eq (p : Ident) (n c : Nat) (hc : c ≤ n) :
    t.classTyWithin p n c = t.classTy p c := by
  induction c using Nat.strongRecOn generalizing p n with
  | ind c ih =>
    rw [classTy, h.classTyWithin_step p hc, h.classTyWithin_step p (Nat.le_refl c)]
    cases houter : t.outerClass? c with
    | none => rw [Option.map_none, Option.map_none]
    | some outer =>
      have hlt := h.outerClass?_lt houter
      rw [Option.map_some, Option.map_some, ih outer hlt _ (n - 1) (by omega),
        ih outer hlt _ (c - 1) (by omega)]

theorem classTy_eq (p : Ident) (c : ClassId) :
    t.classTy p c = t.classTyInside p c ((t.outerClass? c).map (t.classTy (p.child 0))) := by
  rw [classTy, h.classTyWithin_step p (Nat.le_refl c)]
  cases houter : t.outerClass? c with
  | none => rw [Option.map_none, Option.map_none]
  | some outer =>
    rw [Option.map_some, Option.map_some,
      h.classTyWithin_eq _ _ _ (Nat.le_sub_one_of_lt (h.outerClass?_lt houter))]

end Linked

theorem plain_classTyInside (t : Tables) (p : Ident) (c : ClassId) (outer : Option ClassTy) :
    (t.classTyInside p c outer).plain =
      ⟨{}, { nullability := .nonNull }, (t.classAt c).decl.name, outer.map ClassTy.plain,
        (t.classAt c).decl.typeParameters.map fun q => .var { name := q.name }⟩ := by
  rw [classTyInside, ClassTy.plain, ClassTy.plainOption_eq, Ty.plainList_eq]
  refine congrArg (ClassTy.mk _ _ _ _) (List.ext_getElem? fun k => ?_)
  rw [List.getElem?_map, List.getElem?_mapIdx, List.getElem?_map, Option.map_map]
  rfl

/-- The packages and classes of the first tables are in the second ones, with new numbers. -/
structure Embeds (ρ : Renumbering) (t t' : Tables) : Prop where
  package : ∀ {p : PackageId} {e : PackageEntry}, t.packages[p]? = some e →
    ∃ e', t'.packages[ρ .package p]? = some e' ∧ e'.item = e.item
  cls : ∀ {c : ClassId} {e : ClassEntry}, t.classes[c]? = some e →
    ∃ e', t'.classes[ρ .cls c]? = some e' ∧ e'.item = e.item.renumber ρ

theorem item_eq_renumber_iff {e e' : ClassEntry} : e'.item = e.item.renumber ρ ↔
    e'.decl = e.decl ∧ e'.package = ρ .package e.package ∧
      e'.container = e.container.map (ρ .cls) := by
  simp [ClassEntry.item, Item.renumber]

namespace Embeds

variable (h : t.Embeds ρ t')
include h

theorem classAt {c : ClassId} (hc : c < t.classes.size) :
    (t'.classAt (ρ .cls c)).item = (t.classAt c).item.renumber ρ := by
  have he := Array.getElem?_eq_getElem hc
  obtain ⟨e', he', hitem⟩ := h.cls he
  rwa [classAt_eq he', classAt_eq he]

theorem decl_classAt {c : ClassId} (hc : c < t.classes.size) :
    (t'.classAt (ρ .cls c)).decl = (t.classAt c).decl :=
  (item_eq_renumber_iff.mp (h.classAt hc)).1

theorem outerClass? {c : ClassId} (hc : c < t.classes.size) :
    t'.outerClass? (ρ .cls c) = (t.outerClass? c).map (ρ .cls) := by
  obtain ⟨hdecl, _, hcontainer⟩ := item_eq_renumber_iff.mp (h.classAt hc)
  rw [Tables.outerClass?, Tables.outerClass?, hdecl, hcontainer]
  split_ifs <;> rfl

/-- The types of classes are the same but for their identities. -/
theorem plain_classTy (ht : t.Linked) (ht' : t'.Linked) (p p' : Ident) {c : ClassId}
    (hc : c < t.classes.size) :
    (t'.classTy p' (ρ .cls c)).plain = (t.classTy p c).plain := by
  induction c using Nat.strongRecOn generalizing p p' with
  | ind c ih =>
    rw [ht.classTy_eq, ht'.classTy_eq, plain_classTyInside, plain_classTyInside, h.decl_classAt hc,
      h.outerClass? hc]
    cases houter : t.outerClass? c with
    | none => simp only [Option.map_none]
    | some outer =>
      have hlt := ht.outerClass?_lt houter
      rw [Option.map_some, Option.map_some, Option.map_some, Option.map_some, Option.map_some,
        ih outer hlt (p.child 0) (p'.child 0) (Nat.lt_trans hlt hc)]

theorem houses {package : PackageId} {container : Option ClassId} (name : String)
    (hp : package < t.packages.size) (hcontainer : ∀ outer ∈ container, outer < t.classes.size) :
    t'.houses (ρ .package package) (container.map (ρ .cls)) name =
      t.houses package container name := by
  have he := Array.getElem?_eq_getElem hp
  obtain ⟨e', he', hitem⟩ := h.package he
  have hdecl := Item.package.inj hitem
  cases container with
  | none => simp [Tables.houses, he, he', hdecl]
  | some outer =>
    have ho := Array.getElem?_eq_getElem (hcontainer outer rfl)
    obtain ⟨o', ho', hitem⟩ := h.cls ho
    obtain ⟨houter, hpackage, _⟩ := item_eq_renumber_iff.mp hitem
    simp [Tables.houses, he, he', hdecl, ho, ho', houter, hpackage]

theorem declaredType (ht : t.Linked) (ht' : t'.Linked) {c : ClassId} (hc : c < t.classes.size)
    (decl : MemberDecl) :
    (t'.declaredType (ρ .cls c) decl).toOption.map Ty.plain =
      (t.declaredType c decl).toOption.map Ty.plain := by
  rw [Tables.declaredType, Tables.declaredType]
  cases decl.ty with
  | some ty => rfl
  | none =>
    cases decl.kind with
    | constructor =>
      exact congrArg (fun c => some (Ty.cls c)) (h.plain_classTy ht ht' _ _ hc)
    | method | property | field => simp only [Except.toOption]

/-- What a call declares does not depend on numbers. -/
theorem item? (ht : t.Linked) (ht' : t'.Linked) {c : Call} (hc : ∀ r ∈ c.refs, r.2 < t.count r.1) :
    (t'.item? (c.renumber ρ)).map Item.plain =
      (t.item? c).map fun x => (x.renumber ρ).plain := by
  cases c with
  | addPackage decl => rfl
  | addClass package container decl =>
    obtain ⟨hp, hcontainer⟩ := List.forall_mem_cons.mp hc
    rw [count_package] at hp
    have houter : ∀ outer ∈ container, outer < t.classes.size := by
      intro outer houter
      have hlt := hcontainer (.cls, outer) (List.mem_map_of_mem (Option.mem_toList.mpr houter))
      rwa [count_cls] at hlt
    rw [Call.renumber, Tables.item?, Tables.item?, h.houses decl.name hp houter]
    split_ifs <;> rfl
  | addMember c decl =>
    have hlt := List.forall_mem_singleton.mp hc
    rw [count_cls] at hlt
    obtain ⟨e', he', _⟩ := h.cls (Array.getElem?_eq_getElem hlt)
    have hlt' := (Array.getElem?_eq_some_iff.mp he').1
    have hname : t'.declaredName (ρ .cls c) decl = t.declaredName c decl := by
      rw [declaredName, declaredName, h.decl_classAt hlt]
    have htype := h.declaredType ht ht' hlt decl
    rw [Call.renumber, Tables.item?, Tables.item?, if_pos hlt, if_pos hlt', Option.map_map,
      Option.map_map]
    generalize (t'.declaredType _ decl).toOption = u',
      (t.declaredType c decl).toOption = u at htype ⊢
    cases u with
    | none => rw [Option.map_eq_none_iff.mp htype, Option.map_none, Option.map_none]
    | some ty =>
      obtain ⟨ty', rfl, hplain⟩ := Option.map_eq_some_iff.mp htype
      simp [declaredEntry, Item.plain, Item.renumber, hname, hplain]
  | addAlias package decl =>
    have hlt := List.forall_mem_singleton.mp hc
    rw [count_package] at hlt
    obtain ⟨e', he', _⟩ := h.package (Array.getElem?_eq_getElem hlt)
    have hlt' := (Array.getElem?_eq_some_iff.mp he').1
    rw [Call.renumber, Tables.item?, Tables.item?, if_pos hlt, if_pos hlt']
    rfl
  | setType slot ty => rfl

end Embeds

/-- Tables that keep the items of other tables have their packages and classes. -/
theorem embeds_same (h : ∀ {k : ItemKind} {n : Nat} {x : Item}, k ≠ .member →
    (t.items k)[n]? = some x → (t'.items k)[n]? = some x) : t.Embeds .same t' := by
  constructor
  · intro p e he
    have hx := h (k := .package) nofun ((t.getElem?_package p).trans (congrArg _ he))
    rw [getElem?_package] at hx
    exact Option.map_eq_some_iff.mp hx
  · intro c e he
    have hx := h (k := .cls) nofun ((t.getElem?_cls c).trans (congrArg _ he))
    rw [getElem?_cls] at hx
    rw [Item.renumber_same]
    exact Option.map_eq_some_iff.mp hx

/-- The answers to a list of calls with new numbers for what they declared. -/
def renumberedAnswers (ρ : Renumbering) (t : Tables) (calls : List Call) :
    List (Except Error Answer) :=
  List.zipWith (fun c r => r.map (c.renumberAnswer ρ)) calls (t.answers calls)

/-- The second tables have the items of the first ones under new numbers. -/
structure Mirrors (ρ : Renumbering) (t t' : Tables) : Prop where
  linked : t.Linked
  linked' : t'.Linked
  count : ∀ k, t'.count k = t.count k
  fixes : ∀ k n, t.count k ≤ n → ρ k n = n
  items : ∀ k n, (t'.items k)[ρ k n]?.map Item.plain =
    (t.items k)[n]?.map fun x => (x.renumber ρ).plain
  ordered : ∀ {k : ItemKind} {i j : Nat} {l : ChildList}, t.listOf? k i = some l →
    t.listOf? k j = some l → i < j → ρ k i < ρ k j

/-- Tables with the same items under the same numbers. -/
theorem mirrors_same (ht : t.Linked) (ht' : t'.Linked)
    (h : ∀ k (n : Nat), (t'.items k)[n]?.map Item.plain = (t.items k)[n]?.map Item.plain) :
    t.Mirrors .same t' where
  linked := ht
  linked' := ht'
  count := by
    intro k
    have hitems : (t'.items k).map Item.plain = (t.items k).map Item.plain := by
      refine List.ext_getElem? fun n => ?_
      rw [List.getElem?_map, List.getElem?_map, h]
    simpa [Tables.count] using congrArg List.length hitems
  fixes := fun _ _ _ => rfl
  items := by
    intro k n
    simp only [Item.renumber_same]
    exact h k n
  ordered := fun _ _ hlt => hlt

namespace Mirrors

variable (h : t.Mirrors ρ t')
include h

theorem map_items {α : Type} {f : Item → α} (hf : ∀ x, f x.plain = f x) (k : ItemKind) (n : Nat) :
    (t'.items k)[ρ k n]?.map f = (t.items k)[n]?.map fun x => f (x.renumber ρ) := by
  have hmap := congrArg (Option.map f) (h.items k n)
  simpa only [Option.map_map, Function.comp_def, hf] using hmap

theorem lt_count_iff {k : ItemKind} {n : Nat} : ρ k n < t.count k ↔ n < t.count k := by
  rw [← not_iff_not, Nat.not_lt, Nat.not_lt]
  constructor
  · intro hle
    have hfixed := (ρ k).injective (h.fixes k _ hle)
    rwa [hfixed] at hle
  · intro hle
    rwa [h.fixes k n hle]

theorem getElem?_packages (p : PackageId) :
    t'.packages[ρ .package p]?.map PackageEntry.item = t.packages[p]?.map PackageEntry.item := by
  have hitem := h.items .package p
  rw [getElem?_package, getElem?_package, Option.map_map, Option.map_map] at hitem
  exact hitem

theorem getElem?_classes (c : ClassId) :
    t'.classes[ρ .cls c]?.map ClassEntry.item =
      t.classes[c]?.map fun e => e.item.renumber ρ := by
  have hitem := h.items .cls c
  rw [getElem?_cls, getElem?_cls, Option.map_map, Option.map_map] at hitem
  exact hitem

theorem getElem?_members (m : MemberId) :
    t'.members[ρ .member m]?.map (fun e => (Item.member e).plain) =
      t.members[m]?.map fun e => ((Item.member e).renumber ρ).plain := by
  have hitem := h.items .member m
  rw [getElem?_member, getElem?_member, Option.map_map, Option.map_map] at hitem
  exact hitem

theorem getElem?_aliases (a : AliasId) :
    t'.aliases[ρ .typeAlias a]?.map AliasEntry.item =
      t.aliases[a]?.map fun e => e.item.renumber ρ := by
  have hitem := h.items .typeAlias a
  rw [getElem?_typeAlias, getElem?_typeAlias, Option.map_map, Option.map_map] at hitem
  exact hitem

theorem embeds : t.Embeds ρ t' where
  package := by
    intro p e he
    have hitem := h.getElem?_packages p
    rw [he] at hitem
    exact Option.map_eq_some_iff.mp hitem
  cls := by
    intro c e he
    have hitem := h.getElem?_classes c
    rw [he] at hitem
    exact Option.map_eq_some_iff.mp hitem

theorem find? (k : ItemKind) (name : String) : t'.find? k name = (t.find? k name).map (ρ k) := by
  have hfind : ∀ n, t'.find? k name = some (ρ k n) ↔ t.find? k name = some n := by
    intro n
    have hname := h.map_items Item.name?_plain k n
    simp only [Item.name?_renumber] at hname
    rw [h.linked'.find?_eq_some_iff, h.linked.find?_eq_some_iff, ← Option.map_eq_some_iff,
      ← Option.map_eq_some_iff, hname]
  apply Option.ext
  intro n'
  obtain ⟨n, rfl⟩ := (ρ k).surjective n'
  rw [Option.map_eq_some_iff, hfind]
  constructor
  · intro hn
    exact ⟨n, hn, rfl⟩
  · rintro ⟨m, hm, heq⟩
    rwa [← (ρ k).injective heq]

theorem listOf? (k : ItemKind) (n : Nat) :
    t'.listOf? k (ρ k n) = (t.listOf? k n).map (ChildList.renumber ρ) := by
  have hlist := h.map_items Item.list?_plain k n
  rw [Tables.listOf?, Tables.listOf?, hlist]
  cases (t.items k)[n]? with
  | none => rfl
  | some x => exact x.list?_renumber ρ

theorem children (l : ChildList) :
    t'.children (l.renumber ρ) = (t.children l).map (ρ l.kind) := by
  apply List.Pairwise.eq_of_mem_iff (h.linked'.sorted_children _)
  · rw [List.pairwise_map]
    refine (h.linked.sorted_children l).imp_of_mem fun hi hj hlt => ?_
    exact h.ordered (h.linked.mem_children_iff.mp hi) (h.linked.mem_children_iff.mp hj) hlt
  · intro n'
    obtain ⟨n, rfl⟩ := (ρ l.kind).surjective n'
    rw [h.linked'.mem_children_iff, ChildList.kind_renumber, h.listOf?,
      List.mem_map_of_injective (ρ l.kind).injective, h.linked.mem_children_iff,
      ← Option.map_some, (Option.map_injective (ChildList.renumber_injective ρ)).eq_iff]

/-- Tables still mirror each other with one more item of each. -/
theorem push {x x' : Item} {t₁ t₁' : Tables} (hlinked : t₁.Linked) (hlinked' : t₁'.Linked)
    (hitems : t₁.items = t.itemsWith x) (hitems' : t₁'.items = t'.itemsWith x')
    (hplain : x'.plain = (x.renumber ρ).plain) : t₁.Mirrors ρ t₁' := by
  have hkind : x'.kind = x.kind := (Item.kind_eq_of_plain hplain).trans (x.kind_renumber ρ)
  have hnext : ∀ k, ρ k (t.count k) = t.count k := fun k => h.fixes k _ (Nat.le_refl _)
  constructor
  case linked => exact hlinked
  case linked' => exact hlinked'
  case count =>
    intro k
    rw [count_of_items hitems, count_of_items hitems', hkind, h.count]
  case fixes =>
    intro k n hn
    rw [count_of_items hitems] at hn
    exact h.fixes k n (Nat.le_of_add_right_le hn)
  case items =>
    intro k n
    have hnew : ρ k n = t.count k ↔ n = t.count k := (ρ k).injective.eq_iff' (hnext k)
    rw [hitems, hitems', getElem?_itemsWith, getElem?_itemsWith, hkind, h.count]
    simp only [hnew]
    split_ifs
    · exact congrArg some hplain
    · exact h.items k n
  case ordered =>
    intro k i j l hi hj hlt
    rw [listOf?_of_items hitems] at hi hj
    by_cases hlast : j = t.count k
    · rw [hlast] at hlt ⊢
      rw [hnext]
      exact h.lt_count_iff.mpr hlt
    · rw [if_neg (fun hnew => hlast hnew.2)] at hj
      have hold := Nat.lt_trans hlt (lt_of_listOf? hj)
      rw [if_neg (fun hnew => Nat.ne_of_lt hold hnew.2)] at hi
      exact h.ordered hi hj hlt

/-- Tables still mirror each other when one member of each is changed alike. -/
theorem changeMember (m : MemberId) {f f' : MemberEntry → MemberEntry}
    (hf : ∀ e, (f e).declaredIn = e.declaredIn) (hf' : ∀ e, (f' e).declaredIn = e.declaredIn)
    (hplain : ∀ e e', (Item.member e').plain = ((Item.member e).renumber ρ).plain →
      (Item.member (f' e')).plain = ((Item.member (f e)).renumber ρ).plain) :
    (t.changeMember m f).Mirrors ρ (t'.changeMember (ρ .member m) f') := by
  constructor
  case linked => exact h.linked.changeMember hf
  case linked' => exact h.linked'.changeMember hf'
  case count =>
    intro k
    rw [count_changeMember, count_changeMember, h.count]
  case fixes =>
    intro k n hn
    rw [count_changeMember] at hn
    exact h.fixes k n hn
  case items =>
    intro k n
    cases k with
    | member =>
      have hitem := h.getElem?_members n
      rw [getElem?_member, getElem?_member, Option.map_map, Option.map_map]
      simp only [Tables.changeMember, Array.getElem?_modify, (ρ .member).injective.eq_iff]
      split_ifs
      · generalize t'.members[ρ .member n]? = u', t.members[n]? = u at hitem ⊢
        cases u with
        | none =>
          rw [Option.map_eq_none_iff.mp hitem]
          rfl
        | some e =>
          obtain ⟨e', rfl, he'⟩ := Option.map_eq_some_iff.mp hitem
          exact congrArg some (hplain e e' he')
      · exact hitem
    | package => exact h.items .package n
    | cls => exact h.items .cls n
    | typeAlias => exact h.items .typeAlias n
  case ordered =>
    intro k i j l hi hj hlt
    rw [listOf?_changeMember hf] at hi hj
    exact h.ordered hi hj hlt

/-- A call with renumbered references succeeds on mirrored tables when it does on the tables, with a
renumbered answer. -/
theorem effect {c : Call} {answer : Answer} {t₁ : Tables} (heff : t.Effect c answer t₁) :
    ∃ t₁', t'.Effect (c.renumber ρ) (c.renumberAnswer ρ answer) t₁' ∧ t₁.Mirrors ρ t₁' := by
  have hlinked := h.linked.effect heff
  cases heff.change with
  | @known decl id known =>
    have hfind : t'.packageIndex[decl.name]? = some (ρ .package id) := by
      have hmap := h.find? .package decl.name
      rwa [Tables.find?, Tables.find?, known] at hmap
    exact ⟨t', .knownPackage hfind, h⟩
  | @declare _ x _ item fresh items =>
    obtain ⟨hkind, _, hrefs, hlt⟩ := item?_spec item
    have hitem := h.embeds.item? h.linked h.linked' (c := c) (hrefs ▸ hlt)
    rw [item] at hitem
    obtain ⟨x', item', hplain⟩ := Option.map_eq_some_iff.mp hitem
    have hsame : x'.kind = x.kind := (Item.kind_eq_of_plain hplain).trans (x.kind_renumber ρ)
    have hname : x'.name? = x.name? := (Item.name?_eq_of_plain hplain).trans (x.name?_renumber ρ)
    have fresh' : t'.Lacks x' := by
      intro name hx'
      rw [hsame, h.find?, fresh name (hname ▸ hx')]
      rfl
    obtain ⟨t₁', heff', items'⟩ := exists_effect item' fresh'
    refine ⟨t₁', ?_, h.push hlinked (h.linked'.effect heff') items items' hplain⟩
    rw [hsame, h.count] at heff'
    rwa [Call.renumberAnswer, hkind, Option.elim_some, h.fixes _ _ (Nat.le_refl _)]
  | @retype slot ty m e target he hslot =>
    have hitem := h.getElem?_members m
    rw [he] at hitem
    obtain ⟨e', he', hplain⟩ := Option.map_eq_some_iff.mp hitem
    have target' : (slot.renumber ρ).member? = some (ρ .member m) := by
      rw [TypeSlot.member?_renumber, target, Option.map_some]
    have hslot' : (slot.renumber ρ).isIn e' = true := by
      rw [TypeSlot.isIn_renumber hplain, hslot]
    exact ⟨_, effect_setType ty target' he' hslot', h.changeMember m (slot.declaredIn_assign ty)
      ((slot.renumber ρ).declaredIn_assign ty) (slot.plain_assign ty)⟩

/-- Calls with renumbered references that succeed on the tables succeed on mirrored tables, and they
leave mirrored tables. -/
theorem run {calls : List Call} (hok : ∀ r ∈ t.answers calls, r.isOk = true) :
    (∀ r ∈ t'.answers (calls.map (Call.renumber ρ)), r.isOk = true) ∧
      t'.answers (calls.map (Call.renumber ρ)) = t.renumberedAnswers ρ calls ∧
      (t.run calls).Mirrors ρ (t'.run (calls.map (Call.renumber ρ))) := by
  induction calls generalizing t t' with
  | nil => exact ⟨List.forall_mem_nil _, rfl, h⟩
  | cons c cs ih =>
    obtain ⟨hc, hcs⟩ := List.forall_mem_cons.mp hok
    obtain ⟨answer, t₁, heff⟩ := exists_effect_of_isOk hc
    obtain ⟨t₁', heff', hmirrors⟩ := h.effect heff
    have hcall := call_of_effect heff
    have hcall' := call_of_effect heff'
    rw [hcall] at hcs
    obtain ⟨hok', hanswers, hrun⟩ := ih hmirrors hcs
    rw [List.map_cons, answers, renumberedAnswers, answers, Tables.run, Tables.run, hcall, hcall']
    exact ⟨List.forall_mem_cons.mpr ⟨rfl, hok'⟩, congrArg (_ :: ·) hanswers, hrun⟩

end Mirrors

end Tables

end ApiSurface
