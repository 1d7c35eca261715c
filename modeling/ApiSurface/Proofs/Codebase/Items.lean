import ApiSurface.Proofs.Codebase.Nesting

/-!
Tables as numbered items.

What calls tell is kept in the declarations of packages, classes, members and type aliases, each
with a reference to what it belongs to. Child lists and indexes repeat it. So a call is known by
what it does to the items of each kind: it puts one more at the end, or gives another type to one of
them, or it finds its package among them (`Change`).
-/

namespace ApiSurface

theorem Lists.sorted_getD {α β : Type} [DecidableEq β] [Inhabited α] {entries : Array α}
    {children : α → List Nat} {owners : List β} {key : Nat → β}
    (h : Lists entries children owners key) (hdefault : children default = []) (i : Nat) :
    (children (entries.getD i default)).Pairwise (· < ·) := by
  rw [Array.getD_eq_getD_getElem?]
  cases he : entries[i]? with
  | none =>
    rw [Option.getD_none, hdefault]
    exact .nil
  | some e =>
    rw [Option.getD_some, h i e he]
    exact List.pairwise_idxsOf

/-- The kinds of what is numbered. -/
inductive ItemKind where
  | package
  | cls
  | member
  | typeAlias
deriving DecidableEq

/-- The lists that packages and classes keep of what belongs to them. -/
inductive ChildList where
  | classes (p : PackageId)
  | nested (c : ClassId)
  | members (c : ClassId)
  | aliases (p : PackageId)
deriving DecidableEq

/-- The kind of what a list has. -/
def ChildList.kind : ChildList → ItemKind
  | classes _ | nested _ => .cls
  | members _ => .member
  | aliases _ => .typeAlias

/-- What is declared, with references to what it belongs to. -/
inductive Item where
  | package (decl : PackageDecl)
  | cls (decl : ClassDecl) (package : PackageId) (container : Option ClassId)
  | member (e : MemberEntry)
  | typeAlias (decl : AliasDecl) (package : PackageId)
deriving DecidableEq

def PackageEntry.item (e : PackageEntry) : Item := .package e.decl

def ClassEntry.item (e : ClassEntry) : Item := .cls e.decl e.package e.container

def AliasEntry.item (e : AliasEntry) : Item := .typeAlias e.decl e.package

namespace Item

def kind : Item → ItemKind
  | package _ => .package
  | cls .. => .cls
  | member _ => .member
  | typeAlias .. => .typeAlias

/-- The name in the index of the kind. Members have none. -/
def name? : Item → Option String
  | package decl => some decl.name
  | cls decl _ _ => some decl.name
  | member _ => none
  | typeAlias decl _ => some decl.name

/-- The list that has the item. -/
def list? : Item → Option ChildList
  | package _ => none
  | cls _ p none => some (.classes p)
  | cls _ _ (some outer) => some (.nested outer)
  | member e => some (.members e.declaredIn)
  | typeAlias _ p => some (.aliases p)

/-- The items that the item refers to. -/
def refs : Item → List (ItemKind × Nat)
  | package _ => []
  | cls _ p container => (.package, p) :: container.toList.map (.cls, ·)
  | member e => [(.cls, e.declaredIn)]
  | typeAlias _ p => [(.package, p)]

/-- The item with its entry changed if it is a member. -/
def mapMember (f : MemberEntry → MemberEntry) : Item → Item
  | member e => member (f e)
  | x => x

end Item

namespace TypeSlot

/-- The member that gets a type, itself or in a parameter. -/
def member? : TypeSlot → Option MemberId
  | member m | parameter m _ => some m
  | typeAlias _ => none

/-- Whether the entry has the slot. -/
def isIn (e : MemberEntry) : TypeSlot → Bool
  | parameter _ index => index < e.parameters.length
  | _ => true

/-- The entry with another type in the slot. -/
def assign (slot : TypeSlot) (ty : Ty) (e : MemberEntry) : MemberEntry :=
  match slot with
  | member _ => { e with ty }
  | parameter _ index =>
    { e with parameters := e.parameters.modify index fun p => { p with ty } }
  | typeAlias _ => e

theorem declaredIn_assign (slot : TypeSlot) (ty : Ty) (e : MemberEntry) :
    (slot.assign ty e).declaredIn = e.declaredIn := by
  cases slot <;> rfl

end TypeSlot

namespace Call

/-- The kind of what a call declares. -/
def kind? : Call → Option ItemKind
  | addPackage _ => some .package
  | addClass .. => some .cls
  | addMember .. => some .member
  | addAlias .. => some .typeAlias
  | setType .. => none

/-- The list to which a call puts what it declares. -/
def list? : Call → Option ChildList
  | addPackage _ => none
  | addClass p none _ => some (.classes p)
  | addClass _ (some outer) _ => some (.nested outer)
  | addMember c _ => some (.members c)
  | addAlias p _ => some (.aliases p)
  | setType .. => none

/-- The items that a call uses by their numbers. -/
def refs : Call → List (ItemKind × Nat)
  | addPackage _ => []
  | addClass p container _ => (.package, p) :: container.toList.map (.cls, ·)
  | addMember c _ => [(.cls, c)]
  | addAlias p _ => [(.package, p)]
  | setType (.member m) _ | setType (.parameter m _) _ => [(.member, m)]
  | setType (.typeAlias a) _ => [(.typeAlias, a)]

theorem exists_addPackage {c : Call} (h : c.kind? = some .package) :
    ∃ decl, c = .addPackage decl := by
  cases c with
  | addPackage decl => exact ⟨decl, rfl⟩
  | _ => cases h

theorem exists_addMember {c : Call} (h : c.kind? = some .member) :
    ∃ d decl, c = .addMember d decl := by
  cases c with
  | addMember d decl => exact ⟨d, decl, rfl⟩
  | _ => cases h

end Call

namespace Tables

section Views

variable (t : Tables)

/-- The items of a kind in the order of their numbers. -/
def items : ItemKind → List Item
  | .package => t.packages.toList.map PackageEntry.item
  | .cls => t.classes.toList.map ClassEntry.item
  | .member => t.members.toList.map .member
  | .typeAlias => t.aliases.toList.map AliasEntry.item

/-- The number of items of a kind, which is the number of the next one. -/
def count (k : ItemKind) : Nat := (t.items k).length

/-- The item of a kind that has this name. -/
def find? (k : ItemKind) (name : String) : Option Nat :=
  match k with
  | .package => t.packageIndex[name]?
  | .cls => t.classIndex[name]?
  | .member => none
  | .typeAlias => t.aliasIndex[name]?

/-- What a list has. -/
def children : ChildList → List Nat
  | .classes p => (t.packageAt p).classes
  | .nested c => (t.classAt c).nested
  | .members c => (t.classAt c).members
  | .aliases p => (t.packageAt p).aliases

/-- The list that has the item with this number. -/
def listOf? (k : ItemKind) (n : Nat) : Option ChildList := ((t.items k)[n]?.map Item.list?).join

/-- No item of the kind of `x` has the name of `x`. -/
def Lacks (x : Item) : Prop := ∀ name, x.name? = some name → t.find? x.kind name = none

/-- The items with one more at the end of its kind. -/
def itemsWith (x : Item) (k : ItemKind) : List Item :=
  if k = x.kind then t.items k ++ [x] else t.items k

/-- Whether there is a place for a class of this name: its package is there and, if there is one,
its container in that package, and it is named inside them. -/
def houses (package : PackageId) (container : Option ClassId) (name : String) : Bool :=
  (t.packages[package]?.any fun e => e.decl.name = "" || Text.isInside e.decl.name name) &&
    container.all fun outer => t.classes[outer]?.any fun e =>
      e.package = package && Text.isInside e.decl.name name

/-- The entry of a declared member that has the type `ty`. -/
def declaredEntry (c : ClassId) (decl : MemberDecl) (ty : Ty) : MemberEntry where
  kind := decl.kind
  name := t.declaredName c decl
  modifiers := decl.modifiers
  documentation := decl.documentation
  typeParameters := decl.typeParameters
  ty := ty
  parameters := decl.parameters
  declaredIn := c

/-- What a call declares, if there is a place for it. -/
def item? : Call → Option Item
  | .addPackage decl => some (.package decl)
  | .addClass p container decl =>
    if t.houses p container decl.name then some (.cls decl p container) else none
  | .addMember c decl =>
    if c < t.classes.size then
      (t.declaredType c decl).toOption.map fun ty => .member (t.declaredEntry c decl ty)
    else none
  | .addAlias p decl => if p < t.packages.size then some (.typeAlias decl p) else none
  | .setType .. => none

@[simp] theorem count_package : t.count .package = t.packages.size := by
  simp [count, items]

@[simp] theorem count_cls : t.count .cls = t.classes.size := by
  simp [count, items]

@[simp] theorem count_member : t.count .member = t.members.size := by
  simp [count, items]

@[simp] theorem count_typeAlias : t.count .typeAlias = t.aliases.size := by
  simp [count, items]

theorem getElem?_package (p : PackageId) :
    (t.items .package)[p]? = t.packages[p]?.map PackageEntry.item := by
  rw [items, List.getElem?_map, Array.getElem?_toList]

theorem getElem?_cls (c : ClassId) : (t.items .cls)[c]? = t.classes[c]?.map ClassEntry.item := by
  rw [items, List.getElem?_map, Array.getElem?_toList]

theorem getElem?_member (m : MemberId) : (t.items .member)[m]? = t.members[m]?.map .member := by
  rw [items, List.getElem?_map, Array.getElem?_toList]

theorem getElem?_typeAlias (a : AliasId) :
    (t.items .typeAlias)[a]? = t.aliases[a]?.map AliasEntry.item := by
  rw [items, List.getElem?_map, Array.getElem?_toList]

theorem items_putPackage (decl : PackageDecl) :
    (t.putPackage decl).items = t.itemsWith (.package decl) := by
  funext k
  cases k with
  | package => simp [items, itemsWith, putPackage, Item.kind, PackageEntry.item]
  | _ => rfl

theorem items_putClass (package : PackageId) (container : Option ClassId) (decl : ClassDecl) :
    (t.putClass package container decl).items = t.itemsWith (.cls decl package container) := by
  have hlink : (t.linkClass package container).items = t.items := by
    funext k
    cases container with
    | none =>
      cases k with
      | package => exact toList_modify_map fun _ => rfl
      | _ => rfl
    | some outer =>
      cases k with
      | cls => exact toList_modify_map fun _ => rfl
      | _ => rfl
  have hput : (t.putClass package container decl).items =
      (t.linkClass package container).itemsWith (.cls decl package container) := by
    funext k
    cases k with
    | cls => simp [items, itemsWith, putClass, Item.kind, ClassEntry.item]
    | _ => rfl
  rw [hput]
  funext k
  rw [itemsWith, itemsWith, hlink]

theorem items_putMember (c : ClassId) (decl : MemberDecl) (ty : Ty) :
    (t.putMember c decl ty).items = t.itemsWith (.member (t.declaredEntry c decl ty)) := by
  funext k
  cases k with
  | cls => exact toList_modify_map fun _ => rfl
  | member => simp [items, itemsWith, putMember, Item.kind, declaredEntry]
  | _ => rfl

theorem items_putAlias (package : PackageId) (decl : AliasDecl) :
    (t.putAlias package decl).items = t.itemsWith (.typeAlias decl package) := by
  funext k
  cases k with
  | package => exact toList_modify_map fun _ => rfl
  | typeAlias => simp [items, itemsWith, putAlias, Item.kind, AliasEntry.item]
  | _ => rfl

end Views

variable {t t' : Tables}

theorem houses_iff {package : PackageId} {container : Option ClassId} {name : String} :
    t.houses package container name = true ↔
      (∃ e, t.packages[package]? = some e ∧
        (e.decl.name ≠ "" → Text.isInside e.decl.name name = true)) ∧
      ∀ outer, container = some outer → ∃ e, t.classes[outer]? = some e ∧ e.package = package ∧
        Text.isInside e.decl.name name = true := by
  rw [houses, Bool.and_eq_true]
  refine and_congr ?_ ?_
  · cases t.packages[package]? with
    | none => simp
    | some e => simp [or_iff_not_imp_left]
  · cases container with
    | none => simp
    | some outer => cases h : t.classes[outer]? <;> simp [h]

theorem admits_iff {package : PackageId} {container : Option ClassId} {name : String} :
    t.Admits package container name ↔
      t.houses package container name = true ∧ t.classIndex[name]? = none := by
  rw [houses_iff]
  constructor
  · rintro ⟨inPackage, fresh, inContainer⟩
    exact ⟨⟨inPackage, inContainer⟩, fresh⟩
  · rintro ⟨⟨inPackage, inContainer⟩, fresh⟩
    exact ⟨inPackage, fresh, inContainer⟩

/-- What a call that succeeds does to the items. -/
inductive Change (t : Tables) : Call → Answer → Tables → Prop where
  | known {decl : PackageDecl} {id : PackageId} (known : t.packageIndex[decl.name]? = some id) :
      Change t (.addPackage decl) (.id id) t
  | declare {c : Call} {x : Item} {t' : Tables} (item : t.item? c = some x) (fresh : t.Lacks x)
      (items : t'.items = t.itemsWith x) : Change t c (.id (t.count x.kind)) t'
  | retype {slot : TypeSlot} {ty : Ty} {m : MemberId} {e : MemberEntry}
      (target : slot.member? = some m) (he : t.members[m]? = some e) (hslot : slot.isIn e = true) :
      Change t (.setType slot ty) .done (t.changeMember m (slot.assign ty))

theorem item?_addClass {package : PackageId} {container : Option ClassId} {decl : ClassDecl}
    {x : Item} : t.item? (.addClass package container decl) = some x ↔
      t.houses package container decl.name = true ∧ .cls decl package container = x := by
  rw [item?, Option.ite_none_right_eq_some, Option.some.injEq]

theorem item?_addMember {c : ClassId} {decl : MemberDecl} {x : Item} :
    t.item? (.addMember c decl) = some x ↔ c < t.classes.size ∧
      ∃ ty, t.declaredType c decl = .ok ty ∧ .member (t.declaredEntry c decl ty) = x := by
  rw [item?, Option.ite_none_right_eq_some, Option.map_eq_some_iff]
  cases t.declaredType c decl <;> simp [Except.toOption]

theorem item?_addAlias {package : PackageId} {decl : AliasDecl} {x : Item} :
    t.item? (.addAlias package decl) = some x ↔
      package < t.packages.size ∧ .typeAlias decl package = x := by
  rw [item?, Option.ite_none_right_eq_some, Option.some.injEq]

theorem Effect.change {c : Call} {answer : Answer} (h : t.Effect c answer t') :
    t.Change c answer t' := by
  cases h with
  | knownPackage known => exact .known known
  | newPackage fresh =>
    rw [← count_package]
    refine .declare rfl ?_ (t.items_putPackage _)
    rintro _ ⟨⟩
    exact fresh
  | newClass admits =>
    obtain ⟨houses, fresh⟩ := admits_iff.mp admits
    rw [← count_cls]
    refine .declare (item?_addClass.mpr ⟨houses, rfl⟩) ?_ (t.items_putClass _ _ _)
    rintro _ ⟨⟩
    exact fresh
  | newMember hc typed =>
    rw [← count_member]
    refine .declare (item?_addMember.mpr ⟨hc, _, typed, rfl⟩) ?_ (t.items_putMember _ _ _)
    rintro _ ⟨⟩
  | newAlias hp fresh =>
    rw [← count_typeAlias]
    refine .declare (item?_addAlias.mpr ⟨hp, rfl⟩) ?_ (t.items_putAlias _ _)
    rintro _ ⟨⟩
    exact fresh
  | memberType hm => exact .retype rfl (Array.getElem?_eq_getElem hm) rfl
  | parameterType he hi => exact .retype rfl he (decide_eq_true hi)

/-- A call succeeds if there is a place for what it declares and the name is free. -/
theorem exists_effect {c : Call} {x : Item} (item : t.item? c = some x) (fresh : t.Lacks x) :
    ∃ t', t.Effect c (.id (t.count x.kind)) t' ∧ t'.items = t.itemsWith x := by
  cases c with
  | addPackage decl =>
    cases item
    exact ⟨_, t.count_package ▸ .newPackage (fresh _ rfl), t.items_putPackage decl⟩
  | addClass package container decl =>
    obtain ⟨houses, rfl⟩ := item?_addClass.mp item
    exact ⟨_, t.count_cls ▸ .newClass (admits_iff.mpr ⟨houses, fresh _ rfl⟩),
      t.items_putClass package container decl⟩
  | addMember c decl =>
    obtain ⟨hc, ty, typed, rfl⟩ := item?_addMember.mp item
    exact ⟨_, t.count_member ▸ .newMember hc typed, t.items_putMember c decl ty⟩
  | addAlias package decl =>
    obtain ⟨hp, rfl⟩ := item?_addAlias.mp item
    exact ⟨_, t.count_typeAlias ▸ .newAlias hp (fresh _ rfl), t.items_putAlias package decl⟩
  | setType target ty => cases item

theorem effect_setType {slot : TypeSlot} {m : MemberId} {e : MemberEntry} (ty : Ty)
    (target : slot.member? = some m) (he : t.members[m]? = some e) (hslot : slot.isIn e = true) :
    t.Effect (.setType slot ty) .done (t.changeMember m (slot.assign ty)) := by
  cases slot with
  | member m' =>
    cases target
    exact .memberType (Array.getElem?_eq_some_iff.mp he).1
  | parameter m' index =>
    cases target
    exact .parameterType he (of_decide_eq_true hslot)
  | typeAlias a => cases target

/-- The item that a call declares is of the kind of the call and goes to its list. It refers to what
the call uses, and all of that is there. -/
theorem item?_spec {c : Call} {x : Item} (h : t.item? c = some x) :
    c.kind? = some x.kind ∧ c.list? = x.list? ∧ c.refs = x.refs ∧
      ∀ r ∈ x.refs, r.2 < t.count r.1 := by
  cases c with
  | addPackage decl =>
    cases h
    exact ⟨rfl, rfl, rfl, fun _ hr => nomatch hr⟩
  | addClass package container decl =>
    obtain ⟨houses, rfl⟩ := item?_addClass.mp h
    obtain ⟨⟨e, he, _⟩, hcontainer⟩ := houses_iff.mp houses
    refine ⟨rfl, by cases container <;> rfl, rfl, List.forall_mem_cons.mpr ⟨?_, fun r hr => ?_⟩⟩
    · rw [count_package]
      exact (Array.getElem?_eq_some_iff.mp he).1
    · obtain ⟨outer, houter, rfl⟩ := List.mem_map.mp hr
      obtain ⟨o, ho, _⟩ := hcontainer outer (Option.mem_toList.mp houter)
      rw [count_cls]
      exact (Array.getElem?_eq_some_iff.mp ho).1
  | addMember c decl =>
    obtain ⟨hc, ty, _, rfl⟩ := item?_addMember.mp h
    refine ⟨rfl, rfl, rfl, fun r hr => ?_⟩
    obtain rfl := List.mem_singleton.mp hr
    rwa [count_cls]
  | addAlias package decl =>
    obtain ⟨hp, rfl⟩ := item?_addAlias.mp h
    refine ⟨rfl, rfl, rfl, fun r hr => ?_⟩
    obtain rfl := List.mem_singleton.mp hr
    rwa [count_package]
  | setType target ty => cases h

theorem kind_of_getElem? {k : ItemKind} {n : Nat} {x : Item} (hx : (t.items k)[n]? = some x) :
    x.kind = k := by
  have hmem := List.mem_of_getElem? hx
  cases k with
  | _ =>
    obtain ⟨e, _, rfl⟩ := List.mem_map.mp hmem
    rfl

theorem getElem?_itemsWith (x : Item) (k : ItemKind) (n : Nat) :
    (t.itemsWith x k)[n]? = if k = x.kind ∧ n = t.count k then some x else (t.items k)[n]? := by
  rw [itemsWith, count]
  by_cases hk : k = x.kind
  · rw [if_pos hk]
    rcases Nat.lt_trichotomy n (t.items k).length with hlt | heq | hgt
    · rw [if_neg (fun hn => Nat.ne_of_lt hlt hn.2), List.getElem?_append_left hlt]
    · rw [if_pos ⟨hk, heq⟩, heq, List.getElem?_concat_length]
    · rw [if_neg (fun hn => Nat.ne_of_gt hgt hn.2), List.getElem?_eq_none (Nat.le_of_lt hgt),
        List.getElem?_eq_none (by rw [List.length_append]; exact hgt)]
  · rw [if_neg hk, if_neg (fun hn => hk hn.1)]

section

variable {x : Item} (h : t'.items = t.itemsWith x)
include h

/-- Items keep their numbers. -/
theorem getElem?_of_items {k : ItemKind} {n : Nat} {y : Item} (hy : (t.items k)[n]? = some y) :
    (t'.items k)[n]? = some y := by
  have hlt := (List.getElem?_eq_some_iff.mp hy).1
  rw [h, getElem?_itemsWith, if_neg (fun hn => Nat.ne_of_lt hlt hn.2), hy]

theorem count_of_items (k : ItemKind) : t'.count k = t.count k + if k = x.kind then 1 else 0 := by
  rw [count, count, h, itemsWith]
  split_ifs
  · rw [List.length_append, List.length_singleton]
  · rfl

theorem listOf?_of_items (k : ItemKind) (n : Nat) :
    t'.listOf? k n = if k = x.kind ∧ n = t.count k then x.list? else t.listOf? k n := by
  rw [listOf?, h, getElem?_itemsWith]
  split_ifs <;> rfl

end

theorem getElem?_changeMember (m : MemberId) (f : MemberEntry → MemberEntry) (k : ItemKind)
    (n : Nat) : ((t.changeMember m f).items k)[n]? =
      (t.items k)[n]?.map fun x => if n = m then x.mapMember f else x := by
  cases k with
  | package =>
    rw [getElem?_package, getElem?_package, Option.map_map]
    exact Option.map_congr fun _ _ => (ite_self _).symm
  | cls =>
    rw [getElem?_cls, getElem?_cls, Option.map_map]
    exact Option.map_congr fun _ _ => (ite_self _).symm
  | member =>
    rw [getElem?_member, getElem?_member, changeMember, Array.getElem?_modify, Option.map_map]
    by_cases hn : m = n
    · simp [hn, Item.mapMember, Function.comp_def]
    · simp [hn, Ne.symm hn, Function.comp_def]
  | typeAlias =>
    rw [getElem?_typeAlias, getElem?_typeAlias, Option.map_map]
    exact Option.map_congr fun _ _ => (ite_self _).symm

theorem count_changeMember (m : MemberId) (f : MemberEntry → MemberEntry) (k : ItemKind) :
    (t.changeMember m f).count k = t.count k := by
  cases k with
  | member => simp [changeMember]
  | _ => rfl

theorem listOf?_changeMember {m : MemberId} {f : MemberEntry → MemberEntry}
    (hf : ∀ e, (f e).declaredIn = e.declaredIn) (k : ItemKind) (n : Nat) :
    (t.changeMember m f).listOf? k n = t.listOf? k n := by
  have hlist : ∀ x : Item, (if n = m then x.mapMember f else x).list? = x.list? := by
    intro x
    split_ifs
    · cases x with
      | member e => simp [Item.mapMember, Item.list?, hf]
      | _ => rfl
    · rfl
  rw [listOf?, listOf?, getElem?_changeMember, Option.map_map]
  exact congrArg Option.join (Option.map_congr fun x _ => hlist x)

theorem lt_of_listOf? {k : ItemKind} {n : Nat} {l : ChildList} (h : t.listOf? k n = some l) :
    n < t.count k := by
  rw [listOf?, Option.join_eq_some_iff] at h
  obtain ⟨x, hx, _⟩ := Option.map_eq_some_iff.mp h
  exact (List.getElem?_eq_some_iff.mp hx).1

section

variable {P : Item → Prop} {n : Nat}

theorem exists_cls_iff : (∃ x, (t.items .cls)[n]? = some x ∧ P x) ↔
    n < t.classes.size ∧ P (t.classAt n).item := by
  rw [getElem?_cls]
  by_cases hn : n < t.classes.size
  · have he := Array.getElem?_eq_getElem hn
    simp [hn, classAt_eq he]
  · simp [hn]

theorem exists_member_iff : (∃ x, (t.items .member)[n]? = some x ∧ P x) ↔
    n < t.members.size ∧ P (.member (t.memberAt n)) := by
  rw [getElem?_member]
  by_cases hn : n < t.members.size
  · have he := Array.getElem?_eq_getElem hn
    simp [hn, memberAt_eq he]
  · simp [hn]

theorem exists_typeAlias_iff : (∃ x, (t.items .typeAlias)[n]? = some x ∧ P x) ↔
    n < t.aliases.size ∧ P (t.aliasAt n).item := by
  rw [getElem?_typeAlias]
  by_cases hn : n < t.aliases.size
  · have he := Array.getElem?_eq_getElem hn
    simp [hn, aliasAt_eq he]
  · simp [hn]

end

theorem packageAt_eq_default {p : PackageId} (hp : ¬ p < t.packages.size) :
    t.packageAt p = default := by
  simp [packageAt, Array.getD_eq_getD_getElem?, hp]

theorem list?_item_eq_classes_iff {e : ClassEntry} {p : PackageId} :
    e.item.list? = some (.classes p) ↔ e.container = none ∧ e.package = p := by
  rw [ClassEntry.item]
  cases e.container <;> simp [Item.list?]

theorem list?_item_eq_nested_iff {e : ClassEntry} {outer : ClassId} :
    e.item.list? = some (.nested outer) ↔ e.container = some outer := by
  rw [ClassEntry.item]
  cases e.container <;> simp [Item.list?]

namespace Linked

variable (h : t.Linked)
include h

theorem find?_eq_some_iff {k : ItemKind} {name : String} {n : Nat} :
    t.find? k name = some n ↔ ∃ x, (t.items k)[n]? = some x ∧ x.name? = some name := by
  cases k with
  | package =>
    rw [find?, h.packageIndex, packageNames, getElem?_package, List.getElem?_map,
      Array.getElem?_toList]
    cases t.packages[n]? <;> simp [PackageEntry.item, Item.name?]
  | cls =>
    rw [find?, h.classIndex, classNames, bareClasses, getElem?_cls, List.map_map,
      List.getElem?_map, Array.getElem?_toList]
    cases t.classes[n]? <;> simp [ClassEntry.item, Item.name?, ClassEntry.bare]
  | member =>
    rw [find?, getElem?_member]
    cases t.members[n]? <;> simp [Item.name?]
  | typeAlias =>
    rw [find?, h.aliasIndex, aliasNames, getElem?_typeAlias, List.getElem?_map,
      Array.getElem?_toList]
    cases t.aliases[n]? <;> simp [AliasEntry.item, Item.name?]

/-- A list has the items that say so. -/
theorem mem_children_iff {l : ChildList} {n : Nat} :
    n ∈ t.children l ↔ t.listOf? l.kind n = some l := by
  rw [listOf?, Option.join_eq_some_iff, Option.map_eq_some_iff]
  cases l with
  | classes p =>
    rw [ChildList.kind, exists_cls_iff, list?_item_eq_classes_iff, children]
    by_cases hp : p < t.packages.size
    · exact h.mem_classes_iff hp
    · rw [packageAt_eq_default hp]
      refine iff_of_false List.not_mem_nil fun ⟨hn, _, hpackage⟩ => hp ?_
      exact hpackage ▸ h.package_lt hn
  | nested c =>
    rw [ChildList.kind, exists_cls_iff, list?_item_eq_nested_iff, children, h.mem_nested_iff]
    exact (and_iff_right_of_imp fun hnests => (h.container_lt hnests).2).symm
  | members c =>
    rw [ChildList.kind, exists_member_iff, children, h.mem_members_iff]
    simp [Item.list?]
  | aliases p =>
    rw [ChildList.kind, exists_typeAlias_iff, children]
    by_cases hp : p < t.packages.size
    · rw [h.mem_aliases_iff hp]
      simp [Item.list?, AliasEntry.item]
    · rw [packageAt_eq_default hp]
      refine iff_of_false List.not_mem_nil fun ⟨hn, hlist⟩ => hp ?_
      obtain rfl : (t.aliasAt n).package = p := by simpa [Item.list?, AliasEntry.item] using hlist
      exact h.aliasPackage_lt hn

theorem sorted_children (l : ChildList) : (t.children l).Pairwise (· < ·) := by
  cases l with
  | classes p => exact h.topLevel.sorted_getD rfl p
  | nested c => exact h.nested.sorted_getD rfl c
  | members c => exact h.members.sorted_getD rfl c
  | aliases p => exact h.aliases.sorted_getD rfl p

/-- What an item refers to is there. -/
theorem ref_lt {k : ItemKind} {n : Nat} {x : Item} (hx : (t.items k)[n]? = some x) :
    ∀ r ∈ x.refs, r.2 < t.count r.1 := by
  cases k with
  | package =>
    rw [getElem?_package] at hx
    obtain ⟨e, _, rfl⟩ := Option.map_eq_some_iff.mp hx
    exact fun _ hr => nomatch hr
  | cls =>
    obtain ⟨hn, rfl⟩ := exists_cls_iff.mp ⟨x, hx, rfl⟩
    refine List.forall_mem_cons.mpr ⟨?_, fun r hr => ?_⟩
    · rw [count_package]
      exact h.package_lt hn
    · obtain ⟨outer, houter, rfl⟩ := List.mem_map.mp hr
      have hlt := h.container_lt (Option.mem_toList.mp houter)
      rw [count_cls]
      exact Nat.lt_trans hlt.1 hlt.2
  | member =>
    obtain ⟨hn, rfl⟩ := exists_member_iff.mp ⟨x, hx, rfl⟩
    refine List.forall_mem_singleton.mpr ?_
    rw [count_cls]
    exact h.declaredIn_lt hn
  | typeAlias =>
    obtain ⟨hn, rfl⟩ := exists_typeAlias_iff.mp ⟨x, hx, rfl⟩
    refine List.forall_mem_singleton.mpr ?_
    rw [count_package]
    exact h.aliasPackage_lt hn

end Linked

end Tables

end ApiSurface
