import ApiSurface.Proofs.Codebase.Steps
import ApiSurface.Proofs.Text.Dotted
import Mathlib.Data.List.Nodup
import Mathlib.Data.List.Perm.Basic

/-!
Containment in tables that were built call by call.

Names and numbers, containers and what they list are kept twice: an index and the stored names, a
list of children and the back reference of each child. `Linked` says that the two always agree, in
the order of declaration: the children listed by an entry are the numbers of the entries that refer
back to it. Every effect keeps it, so it holds after every list of calls, whatever fails on the way.
`IsForest` is what readers of the tables rely on, and follows from it.
-/

namespace ApiSurface

/-- The index finds the names of the list, each at its position, and nothing else. -/
def Indexes (index : Std.TreeMap String Nat) (names : List String) : Prop :=
  ∀ (name : String) (id : Nat), index[name]? = some id ↔ names[id]? = some name

namespace Indexes

variable {index : Std.TreeMap String Nat} {names : List String}

theorem empty : Indexes ∅ [] := by
  intro name id
  simp

theorem insert {name : String} (h : Indexes index names) (fresh : index[name]? = none) :
    Indexes (index.insert name names.length) (names ++ [name]) := by
  intro name' id
  simp only [Std.TreeMap.getElem?_insert, Std.compare_eq_iff_eq]
  by_cases hname : name = name'
  · subst hname
    simp only [if_true, Option.some.injEq]
    constructor
    · rintro rfl
      simp
    · intro hid
      by_cases hlt : id < names.length
      · rw [List.getElem?_append_left hlt, ← h, fresh] at hid
        cases hid
      · obtain ⟨hlen, _⟩ := List.getElem?_eq_some_iff.mp hid
        rw [List.length_append, List.length_singleton] at hlen
        omega
  · rw [if_neg hname, h name' id]
    by_cases hlt : id < names.length
    · rw [List.getElem?_append_left hlt]
    · rw [List.getElem?_append_right (by omega), List.getElem?_eq_none (by omega)]
      cases hsub : id - names.length with
      | zero => simp [hname]
      | succ k => simp

theorem nodup (h : Indexes index names) : names.Nodup := by
  rw [List.nodup_iff_injective_get]
  intro i j hij
  have hi : index[names.get i]? = some i.val := (h _ _).mpr (by simp)
  have hj : index[names.get j]? = some j.val := (h _ _).mpr (by simp)
  rw [← hij, hi] at hj
  exact Fin.ext (Option.some.inj hj)

end Indexes

theorem mem_idxsOf_iff {β : Type} [DecidableEq β] {owners : List β} {i : Nat} {b : β} :
    i ∈ owners.idxsOf b ↔ owners[i]? = some b := by
  rw [List.mem_idxsOf_iff_exists_getElem_pos, List.getElem?_eq_some_iff]
  simp

/-- Each entry lists the positions in `owners` of its own key, in order. -/
def Lists {α β : Type} [DecidableEq β] (entries : Array α) (children : α → List Nat) (owners : List β)
    (key : Nat → β) : Prop :=
  ∀ i e, entries[i]? = some e → children e = owners.idxsOf (key i)

namespace Lists

variable {α β : Type} [DecidableEq β] {entries : Array α} {children : α → List Nat}
  {owners : List β} {key : Nat → β}

theorem modify {j : Nat} {f : α → α} (h : Lists entries children owners key)
    (hf : ∀ e, children (f e) = children e) : Lists (entries.modify j f) children owners key := by
  intro i e he
  rw [Array.getElem?_modify] at he
  split_ifs at he with hij
  · obtain ⟨e', he', rfl⟩ := Option.map_eq_some_iff.mp he
    rw [hf, h i e' he']
  · exact h i e he

/-- All lists together are those of all keys. -/
theorem flatMap_eq (h : Lists entries children owners key) :
    entries.toList.flatMap children =
      ((List.range entries.size).map key).flatMap fun b => owners.idxsOf b := by
  rw [List.flatMap_map, List.flatMap_def, List.flatMap_def]
  congr 1
  apply List.ext_getElem
  · simp
  · intro i hi _
    simp only [List.length_map, Array.length_toList] at hi
    simp only [List.getElem_map, Array.getElem_toList, List.getElem_range]
    exact h i _ (Array.getElem?_eq_getElem hi)

theorem mem_iff (h : Lists entries children owners key) {i c : Nat} {e : α}
    (he : entries[i]? = some e) : c ∈ children e ↔ owners[c]? = some (key i) := by
  rw [h i e he, mem_idxsOf_iff]

theorem modify_append {j : Nat} {f : α → α} (h : Lists entries children owners key)
    (hkey : Function.Injective key) (hf : ∀ e, children (f e) = children e ++ [owners.length]) :
    Lists (entries.modify j f) children (owners ++ [key j]) key := by
  intro i e he
  rw [List.idxsOf_append, List.idxsOf_cons, List.idxsOf_nil, Nat.zero_add]
  rw [Array.getElem?_modify] at he
  split_ifs at he with hij
  · subst hij
    obtain ⟨e', he', rfl⟩ := Option.map_eq_some_iff.mp he
    rw [hf, h j e' he', if_pos (by simp)]
  · have hne : key j ≠ key i := fun heq => hij (hkey heq)
    rw [h i e he, if_neg (by simpa using hne), List.append_nil]

theorem append_other {b : β} (h : Lists entries children owners key) (hb : ∀ i, key i ≠ b) :
    Lists entries children (owners ++ [b]) key := by
  intro i e he
  rw [List.idxsOf_append, List.idxsOf_cons, List.idxsOf_nil,
    if_neg (by simpa using (hb i).symm), List.append_nil]
  exact h i e he

theorem push {e : α} (h : Lists entries children owners key) (he : children e = [])
    (hnew : key entries.size ∉ owners) : Lists (entries.push e) children owners key := by
  intro i e' he'
  rw [Array.getElem?_push] at he'
  split_ifs at he' with hi
  · obtain rfl := Option.some.inj he'
    subst hi
    rw [he, eq_comm, List.idxsOf_eq_nil_iff]
    intro b hb
    have hne : b ≠ key entries.size := fun heq => hnew (heq ▸ hb)
    simpa using hne
  · exact h i e' he'

end Lists

/-- When every owner is among the keys, each position is listed once under one key. -/
theorem flatMap_idxsOf_perm {β : Type} [DecidableEq β] {keys owners : List β}
    (hkeys : keys.Nodup) (howners : ∀ b ∈ owners, b ∈ keys) :
    (keys.flatMap fun b => owners.idxsOf b).Perm (List.range owners.length) := by
  rw [List.perm_ext_iff_of_nodup _ List.nodup_range]
  · intro i
    simp only [List.mem_flatMap, mem_idxsOf_iff, List.mem_range]
    constructor
    · rintro ⟨b, _, hb⟩
      exact (List.getElem?_eq_some_iff.mp hb).1
    · intro hi
      exact ⟨owners[i], howners _ (List.getElem_mem hi), List.getElem?_eq_getElem hi⟩
  · rw [List.nodup_flatMap]
    refine ⟨fun b _ => List.nodup_idxsOf, hkeys.imp ?_⟩
    intro b b' hne i hb hb'
    rw [mem_idxsOf_iff] at hb hb'
    rw [hb, Option.some.injEq] at hb'
    exact hne hb'

/-- The entry of a class without what it lists. -/
def ClassEntry.bare (e : ClassEntry) : ClassEntry :=
  { decl := e.decl, package := e.package, container := e.container }

theorem ClassEntry.bare_eq_iff {e e' : ClassEntry} :
    e.bare = e'.bare ↔ e.decl = e'.decl ∧ e.package = e'.package ∧ e.container = e'.container := by
  simp [bare]

/-- What lists a class: its container, or else its package. -/
def ClassEntry.owner (e : ClassEntry) : PackageId ⊕ ClassId :=
  match e.container with
  | none => .inl e.package
  | some outer => .inr outer

theorem toList_modify_map {α β : Type} {entries : Array α} {j : Nat} {f : α → α} {g : α → β}
    (h : ∀ e, g (f e) = g e) : (entries.modify j f).toList.map g = entries.toList.map g := by
  apply List.ext_getElem?
  intro i
  simp only [List.getElem?_map, Array.getElem?_toList, Array.getElem?_modify]
  split_ifs with hij
  · rw [Option.map_map]
    congr 1
    funext e
    exact h e
  · rfl

namespace Tables

section Views

variable (t : Tables)

def packageNames : List String := t.packages.toList.map (·.decl.name)

def bareClasses : List ClassEntry := t.classes.toList.map ClassEntry.bare

def classNames : List String := t.bareClasses.map (·.decl.name)

def classOwners : List (PackageId ⊕ ClassId) := t.bareClasses.map ClassEntry.owner

def aliasNames : List String := t.aliases.toList.map (·.decl.name)

def memberOwners : List ClassId := t.members.toList.map (·.declaredIn)

def aliasOwners : List PackageId := t.aliases.toList.map (·.package)

@[simp] theorem length_packageNames : t.packageNames.length = t.packages.size := by
  simp [packageNames]

@[simp] theorem length_bareClasses : t.bareClasses.length = t.classes.size := by
  simp [bareClasses]

@[simp] theorem length_classNames : t.classNames.length = t.classes.size := by
  simp [classNames]

@[simp] theorem length_classOwners : t.classOwners.length = t.classes.size := by
  simp [classOwners]

@[simp] theorem length_aliasNames : t.aliasNames.length = t.aliases.size := by
  simp [aliasNames]

@[simp] theorem length_memberOwners : t.memberOwners.length = t.members.size := by
  simp [memberOwners]

@[simp] theorem length_aliasOwners : t.aliasOwners.length = t.aliases.size := by
  simp [aliasOwners]

theorem packageNames_putPackage (decl : PackageDecl) :
    (t.putPackage decl).packageNames = t.packageNames ++ [decl.name] := by
  simp [packageNames, putPackage]

theorem packageNames_putClass (package : PackageId) (container : Option ClassId)
    (decl : ClassDecl) : (t.putClass package container decl).packageNames = t.packageNames := by
  cases container with
  | none => exact toList_modify_map fun _ => rfl
  | some outer => rfl

theorem bareClasses_putClass (package : PackageId) (container : Option ClassId)
    (decl : ClassDecl) : (t.putClass package container decl).bareClasses =
      t.bareClasses ++ [{ decl := decl, package := package, container := container }] := by
  cases container with
  | none => simp [bareClasses, putClass, linkClass, ClassEntry.bare]
  | some outer =>
    simp only [bareClasses, putClass, linkClass, Array.toList_push, List.map_append,
      List.map_cons, List.map_nil]
    rw [toList_modify_map]
    · rfl
    · intro e
      rfl

@[simp] theorem size_packages_putClass (package : PackageId) (container : Option ClassId)
    (decl : ClassDecl) : (t.putClass package container decl).packages.size = t.packages.size := by
  cases container <;> simp [putClass, linkClass]

@[simp] theorem size_classes_putClass (package : PackageId) (container : Option ClassId)
    (decl : ClassDecl) :
    (t.putClass package container decl).classes.size = t.classes.size + 1 := by
  cases container <;> simp [putClass, linkClass]

theorem memberOwners_putClass (package : PackageId) (container : Option ClassId)
    (decl : ClassDecl) : (t.putClass package container decl).memberOwners = t.memberOwners := by
  cases container <;> rfl

theorem aliasOwners_putClass (package : PackageId) (container : Option ClassId)
    (decl : ClassDecl) : (t.putClass package container decl).aliasOwners = t.aliasOwners := by
  cases container <;> rfl

theorem bareClasses_putMember (c : ClassId) (decl : MemberDecl) (ty : Ty) :
    (t.putMember c decl ty).bareClasses = t.bareClasses :=
  toList_modify_map fun _ => rfl

theorem memberOwners_putMember (c : ClassId) (decl : MemberDecl) (ty : Ty) :
    (t.putMember c decl ty).memberOwners = t.memberOwners ++ [c] := by
  simp [memberOwners, putMember]

theorem packageNames_putAlias (package : PackageId) (decl : AliasDecl) :
    (t.putAlias package decl).packageNames = t.packageNames :=
  toList_modify_map fun _ => rfl

theorem aliasNames_putAlias (package : PackageId) (decl : AliasDecl) :
    (t.putAlias package decl).aliasNames = t.aliasNames ++ [decl.name] := by
  simp [aliasNames, putAlias]

theorem aliasOwners_putAlias (package : PackageId) (decl : AliasDecl) :
    (t.putAlias package decl).aliasOwners = t.aliasOwners ++ [package] := by
  simp [aliasOwners, putAlias]

theorem memberOwners_changeMember {m : MemberId} {f : MemberEntry → MemberEntry}
    (h : ∀ e, (f e).declaredIn = e.declaredIn) :
    (t.changeMember m f).memberOwners = t.memberOwners :=
  toList_modify_map h

end Views

/-- The class `c` has a place: its package and, if there is one, its container are there, and it is
named inside them. -/
structure Fits (t : Tables) (c : Nat) (e : ClassEntry) : Prop where
  inPackage : ∃ name, t.packageNames[e.package]? = some name ∧
    (name ≠ "" → Text.isInside name e.decl.name = true)
  inContainer : ∀ outer : Nat, e.container = some outer →
    outer < c ∧ ∃ o, t.bareClasses[outer]? = some o ∧ o.package = e.package ∧
      Text.isInside o.decl.name e.decl.name = true

/-- Indexes agree with names, and lists of children with back references. -/
structure Linked (t : Tables) : Prop where
  packageIndex : Indexes t.packageIndex t.packageNames
  classIndex : Indexes t.classIndex t.classNames
  aliasIndex : Indexes t.aliasIndex t.aliasNames
  topLevel : Lists t.packages (·.classes) t.classOwners .inl
  nested : Lists t.classes (·.nested) t.classOwners .inr
  members : Lists t.classes (·.members) t.memberOwners id
  aliases : Lists t.packages (·.aliases) t.aliasOwners id
  fits : ∀ c e, t.bareClasses[c]? = some e → t.Fits c e
  memberOwner_lt : ∀ c ∈ t.memberOwners, c < t.classes.size
  aliasOwner_lt : ∀ p ∈ t.aliasOwners, p < t.packages.size

variable {t t' : Tables}

/-- A class keeps its place when packages and classes are only added. -/
theorem Fits.mono {c : ClassId} {e : ClassEntry} (h : t.Fits c e)
    (hp : t.packageNames <+: t'.packageNames) (hc : t.bareClasses <+: t'.bareClasses) :
    t'.Fits c e := by
  obtain ⟨ps, hps⟩ := hp
  obtain ⟨cs, hcs⟩ := hc
  constructor
  · obtain ⟨name, hname, hin⟩ := h.inPackage
    refine ⟨name, ?_, hin⟩
    rw [← hps, List.getElem?_append_left (List.getElem?_eq_some_iff.mp hname).1]
    exact hname
  · intro outer houter
    obtain ⟨hlt, o, ho, hin⟩ := h.inContainer outer houter
    refine ⟨hlt, o, ?_, hin⟩
    rw [← hcs, List.getElem?_append_left (List.getElem?_eq_some_iff.mp ho).1]
    exact ho

theorem linked_empty : Linked {} where
  packageIndex := Indexes.empty
  classIndex := Indexes.empty
  aliasIndex := Indexes.empty
  topLevel := by intro i e he; simp at he
  nested := by intro i e he; simp at he
  members := by intro i e he; simp at he
  aliases := by intro i e he; simp at he
  fits := by intro c e he; simp [bareClasses] at he
  memberOwner_lt := by intro c hc; simp [memberOwners] at hc
  aliasOwner_lt := by intro p hp; simp [aliasOwners] at hp

/-- A class is listed by a package that is there, or by a class with a smaller number. -/
theorem owner_cases (hfits : ∀ c e, t.bareClasses[c]? = some e → t.Fits c e)
    {owner : PackageId ⊕ ClassId} (howner : owner ∈ t.classOwners) :
    (∃ p, owner = .inl p ∧ p < t.packages.size) ∨
      (∃ c, owner = .inr c ∧ c + 1 < t.classes.size) := by
  obtain ⟨e, he, rfl⟩ := List.mem_map.mp howner
  obtain ⟨c, hc⟩ := List.mem_iff_getElem?.mp he
  have hlt := (List.getElem?_eq_some_iff.mp hc).1
  rw [length_bareClasses] at hlt
  cases hcont : e.container with
  | none =>
    obtain ⟨name, hname, _⟩ := (hfits c e hc).inPackage
    have hp := (List.getElem?_eq_some_iff.mp hname).1
    rw [length_packageNames] at hp
    exact .inl ⟨e.package, by simp [ClassEntry.owner, hcont], hp⟩
  | some outer =>
    have houter := ((hfits c e hc).inContainer outer hcont).1
    exact .inr ⟨outer, by simp [ClassEntry.owner, hcont], Nat.lt_of_le_of_lt houter hlt⟩

namespace Linked

theorem putPackage {decl : PackageDecl} (h : t.Linked)
    (fresh : t.packageIndex[decl.name]? = none) : (t.putPackage decl).Linked where
  packageIndex := by
    rw [packageNames_putPackage]
    have hins := h.packageIndex.insert fresh
    rwa [length_packageNames] at hins
  classIndex := h.classIndex
  aliasIndex := h.aliasIndex
  topLevel := by
    apply h.topLevel.push rfl
    intro hmem
    obtain ⟨p, heq, hp⟩ | ⟨c, heq, _⟩ := owner_cases h.fits hmem
    · cases heq
      exact Nat.lt_irrefl _ hp
    · cases heq
  nested := h.nested
  members := h.members
  aliases := h.aliases.push rfl fun hmem => Nat.lt_irrefl _ (h.aliasOwner_lt _ hmem)
  fits := by
    intro c e he
    apply (h.fits c e he).mono
    · rw [packageNames_putPackage]
      exact List.prefix_append _ _
    · exact List.prefix_rfl
  memberOwner_lt := h.memberOwner_lt
  aliasOwner_lt := by
    intro p hp
    simp only [Tables.putPackage, Array.size_push]
    exact Nat.lt_succ_of_lt (h.aliasOwner_lt p hp)

theorem fits_of_admits {package : PackageId} {container : Option ClassId} {decl : ClassDecl}
    (h : t.Admits package container decl.name) :
    t.Fits t.classes.size { decl := decl, package := package, container := container } where
  inPackage := by
    obtain ⟨e, he, hin⟩ := h.inPackage
    exact ⟨e.decl.name, by simp [packageNames, he], hin⟩
  inContainer := by
    intro outer houter
    obtain ⟨e, he, hpackage, hin⟩ := h.inContainer outer houter
    refine ⟨(Array.getElem?_eq_some_iff.mp he).1, e.bare, ?_, hpackage, hin⟩
    simp [bareClasses, he]

theorem fits_putClass {package : PackageId} {container : Option ClassId} {decl : ClassDecl}
    (h : t.Linked) (admits : t.Admits package container decl.name) (c : ClassId) (e : ClassEntry)
    (he : (t.putClass package container decl).bareClasses[c]? = some e) :
    (t.putClass package container decl).Fits c e := by
  have hp : t.packageNames <+: (t.putClass package container decl).packageNames :=
    ⟨[], by rw [List.append_nil, packageNames_putClass]⟩
  have hc : t.bareClasses <+: (t.putClass package container decl).bareClasses := by
    rw [bareClasses_putClass]
    exact List.prefix_append _ _
  rw [bareClasses_putClass, List.getElem?_append, length_bareClasses] at he
  split_ifs at he with hlt
  · exact (h.fits c e he).mono hp hc
  · obtain ⟨hzero, rfl⟩ : c - t.classes.size = 0 ∧ _ = e := by
      simpa [List.getElem?_singleton] using he
    obtain rfl : c = t.classes.size :=
      Nat.le_antisymm (Nat.le_of_sub_eq_zero hzero) (Nat.le_of_not_lt hlt)
    exact (fits_of_admits admits).mono hp hc

/-- The lists of packages and classes after a class was put into one of them. -/
theorem linkClass_lists {package : PackageId} {container : Option ClassId} {decl : ClassDecl}
    (h : t.Linked) :
    Lists (t.linkClass package container).packages (·.classes)
        (t.putClass package container decl).classOwners .inl ∧
      Lists (t.linkClass package container).classes (·.nested)
        (t.putClass package container decl).classOwners .inr := by
  rw [classOwners, bareClasses_putClass, List.map_append]
  change Lists _ _ (t.classOwners ++ _) _ ∧ Lists _ _ (t.classOwners ++ _) _
  cases container with
  | none =>
    refine ⟨?_, h.nested.append_other (by simp [ClassEntry.owner])⟩
    exact h.topLevel.modify_append (fun _ _ => Sum.inl.inj) (by simp)
  | some outer =>
    refine ⟨h.topLevel.append_other (by simp [ClassEntry.owner]), ?_⟩
    exact h.nested.modify_append (fun _ _ => Sum.inr.inj) (by simp)

theorem putClass {package : PackageId} {container : Option ClassId} {decl : ClassDecl}
    (h : t.Linked) (admits : t.Admits package container decl.name) :
    (t.putClass package container decl).Linked where
  packageIndex := by
    rw [packageNames_putClass]
    cases container <;> exact h.packageIndex
  classIndex := by
    have hins := h.classIndex.insert admits.fresh
    rw [length_classNames] at hins
    rw [classNames, bareClasses_putClass, List.map_append]
    cases container <;> exact hins
  aliasIndex := by cases container <;> exact h.aliasIndex
  topLevel := h.linkClass_lists.1
  nested := by
    apply h.linkClass_lists.2.push rfl
    intro hmem
    obtain ⟨p, heq, _⟩ | ⟨c, heq, hc⟩ := owner_cases (h.fits_putClass admits) hmem
    · cases heq
    · cases heq
      cases container <;> simp [linkClass] at hc
  members := by
    rw [memberOwners_putClass]
    apply Lists.push _ rfl
    · intro hmem
      have hlt := h.memberOwner_lt _ hmem
      cases container <;> simp [linkClass] at hlt
    · cases container with
      | none => exact h.members
      | some outer => exact h.members.modify (fun _ => rfl)
  aliases := by
    rw [aliasOwners_putClass]
    cases container with
    | none => exact h.aliases.modify (fun _ => rfl)
    | some outer => exact h.aliases
  fits := h.fits_putClass admits
  memberOwner_lt := by
    intro c hc
    rw [memberOwners_putClass] at hc
    rw [size_classes_putClass]
    exact Nat.lt_succ_of_lt (h.memberOwner_lt c hc)
  aliasOwner_lt := by
    intro p hp
    rw [aliasOwners_putClass] at hp
    rw [size_packages_putClass]
    exact h.aliasOwner_lt p hp

theorem putMember {c : ClassId} {decl : MemberDecl} {ty : Ty} (h : t.Linked)
    (hc : c < t.classes.size) : (t.putMember c decl ty).Linked where
  packageIndex := h.packageIndex
  classIndex := by
    rw [classNames, bareClasses_putMember]
    exact h.classIndex
  aliasIndex := h.aliasIndex
  topLevel := by
    rw [classOwners, bareClasses_putMember]
    exact h.topLevel
  nested := by
    rw [classOwners, bareClasses_putMember]
    exact h.nested.modify (fun _ => rfl)
  members := by
    rw [memberOwners_putMember]
    exact h.members.modify_append Function.injective_id (by simp)
  aliases := h.aliases
  fits := by
    intro c e he
    rw [bareClasses_putMember] at he
    refine (h.fits c e he).mono List.prefix_rfl ?_
    exact ⟨[], by rw [List.append_nil, bareClasses_putMember]⟩
  memberOwner_lt := by
    intro owner howner
    simp only [Tables.putMember, Array.size_modify]
    rw [memberOwners_putMember, List.mem_append, List.mem_singleton] at howner
    rcases howner with hold | rfl
    · exact h.memberOwner_lt owner hold
    · exact hc
  aliasOwner_lt := h.aliasOwner_lt

theorem putAlias {package : PackageId} {decl : AliasDecl} (h : t.Linked)
    (hp : package < t.packages.size) (fresh : t.aliasIndex[decl.name]? = none) :
    (t.putAlias package decl).Linked where
  packageIndex := by
    rw [packageNames_putAlias]
    exact h.packageIndex
  classIndex := h.classIndex
  aliasIndex := by
    have hins := h.aliasIndex.insert fresh
    rw [length_aliasNames] at hins
    rw [aliasNames_putAlias]
    exact hins
  topLevel := h.topLevel.modify (fun _ => rfl)
  nested := h.nested
  members := h.members
  aliases := by
    rw [aliasOwners_putAlias]
    exact h.aliases.modify_append Function.injective_id (by simp)
  fits := by
    intro c e he
    refine (h.fits c e he).mono ?_ List.prefix_rfl
    exact ⟨[], by rw [List.append_nil, packageNames_putAlias]⟩
  memberOwner_lt := h.memberOwner_lt
  aliasOwner_lt := by
    intro owner howner
    simp only [Tables.putAlias, Array.size_modify]
    rw [aliasOwners_putAlias, List.mem_append, List.mem_singleton] at howner
    rcases howner with hold | rfl
    · exact h.aliasOwner_lt owner hold
    · exact hp

theorem changeMember {m : MemberId} {f : MemberEntry → MemberEntry} (h : t.Linked)
    (hf : ∀ e, (f e).declaredIn = e.declaredIn) : (t.changeMember m f).Linked :=
  { h with
    members := by
      rw [memberOwners_changeMember t hf]
      exact h.members
    fits := fun c e he => (h.fits c e he).mono List.prefix_rfl List.prefix_rfl
    memberOwner_lt := by
      rw [memberOwners_changeMember t hf]
      exact h.memberOwner_lt }

theorem effect {c : Call} {answer : Answer} (h : t.Linked) (heff : t.Effect c answer t') :
    t'.Linked := by
  cases heff with
  | knownPackage _ => exact h
  | newPackage fresh => exact h.putPackage fresh
  | newClass admits => exact h.putClass admits
  | newMember hc _ => exact h.putMember hc
  | newAlias hp fresh => exact h.putAlias hp fresh
  | memberType _ => exact h.changeMember fun _ => rfl
  | parameterType _ _ => exact h.changeMember fun _ => rfl

end Linked

theorem linked_run (calls : List Call) : (run {} calls).Linked :=
  run_keeps Linked.effect calls linked_empty

theorem classAt_eq {c : ClassId} {e : ClassEntry} (he : t.classes[c]? = some e) :
    t.classAt c = e := by
  simp [classAt, Array.getD_eq_getD_getElem?, he]

theorem classAt_eq_default {c : ClassId} (hc : t.classes[c]? = none) : t.classAt c = default := by
  simp [classAt, Array.getD_eq_getD_getElem?, hc]

/-- Distinct classes of the tables are at most as many as the tables have. -/
theorem length_le_of_nodup {classes : List Nat} (hnodup : classes.Nodup)
    (hlt : ∀ c ∈ classes, c < t.classes.size) : classes.length ≤ t.classes.size := by
  have hsub : classes ⊆ List.range t.classes.size := fun c hc => List.mem_range.mpr (hlt c hc)
  have hle := hnodup.length_le_of_subset hsub
  rwa [List.length_range] at hle

theorem bare_classAt (t : Tables) (c : ClassId) :
    (t.classAt c).bare = t.bareClasses[c]?.getD default := by
  rw [classAt, Array.getD_eq_getD_getElem?, bareClasses, List.getElem?_map, Array.getElem?_toList]
  cases t.classes[c]? <;> rfl

/-- The classes around a class depend on nothing but containers. -/
theorem enclosing_congr
    (h : ∀ c, (t.classAt c).container = (t'.classAt c).container) (c : ClassId) :
    t.enclosing c = t'.enclosing c := by
  have hwithin : ∀ n c, t.enclosingWithin n c = t'.enclosingWithin n c := by
    intro n
    induction n with
    | zero =>
      intro c
      rfl
    | succ n ih =>
      intro c
      rw [enclosingWithin, enclosingWithin, h c]
      cases (t'.classAt c).container with
      | none => rfl
      | some outer => exact congrArg (c :: ·) (ih outer)
  exact hwithin c c

/-- The chain of containers from `c` on, each the container of the one before, ends at a class that
is not nested. -/
structure Chain (t : Tables) (c : ClassId) (chain : List ClassId) : Prop where
  head : chain.head? = some c
  steps : chain.IsChain fun inner outer => (t.classAt inner).container = some outer
  last : ∃ top, chain.getLast? = some top ∧ top < t.classes.size ∧
    (t.classAt top).container = none

/-- Tables are a forest of packages, classes, members and type aliases. -/
structure IsForest (t : Tables) : Prop where
  packageIndex : Indexes t.packageIndex t.packageNames
  classIndex : Indexes t.classIndex t.classNames
  aliasIndex : Indexes t.aliasIndex t.aliasNames
  packageNames_nodup : t.packageNames.Nodup
  classNames_nodup : t.classNames.Nodup
  aliasNames_nodup : t.aliasNames.Nodup
  /-- Every class is listed exactly once in all lists together. -/
  classes_listed : (t.packages.toList.flatMap (·.classes) ++
    t.classes.toList.flatMap (·.nested)).Perm (List.range t.classes.size)
  /-- A class is named inside its package, which lists it if it is not nested. -/
  package : ∀ (c : Nat) (e : ClassEntry), t.classes[c]? = some e →
    ∃ p : PackageEntry, t.packages[e.package]? = some p ∧ (e.container = none → c ∈ p.classes) ∧
      (p.decl.name ≠ "" → ∃ rest, rest ≠ "" ∧ e.decl.name = p.decl.name ++ "." ++ rest)
  /-- A nested class is named inside its container, which lists it and is in the same package. -/
  container : ∀ (c outer : Nat) (e : ClassEntry), t.classes[c]? = some e →
    e.container = some outer → outer < c ∧ ∃ o : ClassEntry, t.classes[outer]? = some o ∧
      c ∈ o.nested ∧ o.package = e.package ∧
      ∃ rest, rest ≠ "" ∧ e.decl.name = o.decl.name ++ "." ++ rest
  enclosing : ∀ c : Nat, c < t.classes.size → t.Chain c (t.enclosing c)
  members_listed : (t.classes.toList.flatMap (·.members)).Perm (List.range t.members.size)
  declaredIn : ∀ (m : Nat) (e : MemberEntry), t.members[m]? = some e →
    ∃ c : ClassEntry, t.classes[e.declaredIn]? = some c ∧ m ∈ c.members
  aliases_listed : (t.packages.toList.flatMap (·.aliases)).Perm (List.range t.aliases.size)
  aliasPackage : ∀ (a : Nat) (e : AliasEntry), t.aliases[a]? = some e →
    ∃ p : PackageEntry, t.packages[e.package]? = some p ∧ a ∈ p.aliases

namespace Linked

theorem container_lt (h : t.Linked) {c outer : Nat}
    (hcont : (t.classAt c).container = some outer) : outer < c ∧ c < t.classes.size := by
  cases he : t.classes[c]? with
  | none =>
    have hdefault : t.classAt c = default := by simp [classAt, Array.getD_eq_getD_getElem?, he]
    rw [hdefault] at hcont
    cases hcont
  | some e =>
    rw [classAt_eq he] at hcont
    have hbare : t.bareClasses[c]? = some e.bare := by simp [bareClasses, he]
    exact ⟨((h.fits c _ hbare).inContainer outer hcont).1, (Array.getElem?_eq_some_iff.mp he).1⟩

/-- Containers have smaller numbers, so that `c` steps outwards from `c` are enough. -/
theorem chain_enclosingWithin (h : t.Linked) (n : Nat) :
    ∀ c : Nat, c ≤ n → c < t.classes.size → t.Chain c (t.enclosingWithin n c) := by
  induction n with
  | zero =>
    intro c hc hlt
    refine ⟨rfl, .singleton _, c, rfl, hlt, ?_⟩
    by_contra hcont
    obtain ⟨outer, houter⟩ := Option.ne_none_iff_exists'.mp hcont
    have hbefore := (h.container_lt houter).1
    omega
  | succ n ih =>
    intro c hc hlt
    cases hcont : (t.classAt c).container with
    | none =>
      have heq : t.enclosingWithin (n + 1) c = [c] := by simp [enclosingWithin, hcont]
      rw [heq]
      exact ⟨rfl, .singleton _, c, rfl, hlt, hcont⟩
    | some outer =>
      have heq : t.enclosingWithin (n + 1) c = c :: t.enclosingWithin n outer := by
        simp [enclosingWithin, hcont]
      have hbefore := (h.container_lt hcont).1
      have hchain := ih outer (by omega) (by omega)
      obtain ⟨rest, hrest⟩ := List.head?_eq_some_iff.mp hchain.head
      rw [heq]
      refine ⟨rfl, ?_, ?_⟩
      · rw [hrest, List.isChain_cons_cons, ← hrest]
        exact ⟨hcont, hchain.steps⟩
      · rw [hrest, List.getLast?_cons_cons, ← hrest]
        exact hchain.last

theorem classes_listed (h : t.Linked) :
    (t.packages.toList.flatMap (·.classes) ++ t.classes.toList.flatMap (·.nested)).Perm
      (List.range t.classes.size) := by
  rw [h.topLevel.flatMap_eq, h.nested.flatMap_eq, ← List.flatMap_append]
  refine (flatMap_idxsOf_perm ?_ ?_).trans (by rw [length_classOwners])
  · rw [List.nodup_append]
    refine ⟨List.nodup_range.map fun _ _ => Sum.inl.inj,
      List.nodup_range.map fun _ _ => Sum.inr.inj, ?_⟩
    intro a ha b hb
    obtain ⟨p, _, rfl⟩ := List.mem_map.mp ha
    obtain ⟨c, _, rfl⟩ := List.mem_map.mp hb
    exact Sum.inl_ne_inr
  · intro owner howner
    rw [List.mem_append, List.mem_map, List.mem_map]
    obtain ⟨p, rfl, hp⟩ | ⟨c, rfl, hc⟩ := owner_cases h.fits howner
    · exact .inl ⟨p, List.mem_range.mpr hp, rfl⟩
    · exact .inr ⟨c, List.mem_range.mpr (Nat.lt_trans (Nat.lt_succ_self c) hc), rfl⟩

theorem isForest (h : t.Linked) : t.IsForest where
  packageIndex := h.packageIndex
  classIndex := h.classIndex
  aliasIndex := h.aliasIndex
  packageNames_nodup := h.packageIndex.nodup
  classNames_nodup := h.classIndex.nodup
  aliasNames_nodup := h.aliasIndex.nodup
  classes_listed := h.classes_listed
  package := by
    intro c e he
    have hbare : t.bareClasses[c]? = some e.bare := by simp [bareClasses, he]
    obtain ⟨name, hname, hin⟩ := (h.fits c _ hbare).inPackage
    obtain ⟨p, hp, rfl⟩ : ∃ p, t.packages[e.package]? = some p ∧ p.decl.name = name := by
      simpa [packageNames, ClassEntry.bare] using hname
    refine ⟨p, hp, fun htop => ?_, fun hne => Text.isInside_iff.mp (hin hne)⟩
    refine (h.topLevel.mem_iff hp).mpr ?_
    simp [classOwners, hbare, ClassEntry.owner, ClassEntry.bare, htop]
  container := by
    intro c outer e he hcont
    have hbare : t.bareClasses[c]? = some e.bare := by simp [bareClasses, he]
    obtain ⟨hlt, o', ho', hpackage, hin⟩ := (h.fits c _ hbare).inContainer outer hcont
    obtain ⟨o, ho, rfl⟩ : ∃ o, t.classes[outer]? = some o ∧ o.bare = o' := by
      simpa [bareClasses] using ho'
    refine ⟨hlt, o, ho, (h.nested.mem_iff ho).mpr ?_, hpackage, Text.isInside_iff.mp hin⟩
    simp [classOwners, hbare, ClassEntry.owner, ClassEntry.bare, hcont]
  enclosing := fun c hc => h.chain_enclosingWithin c c (Nat.le_refl c) hc
  members_listed := by
    rw [h.members.flatMap_eq, ← length_memberOwners, List.map_id]
    exact flatMap_idxsOf_perm List.nodup_range fun c hc =>
      List.mem_range.mpr (h.memberOwner_lt c hc)
  declaredIn := by
    intro m e he
    have howner : t.memberOwners[m]? = some e.declaredIn := by simp [memberOwners, he]
    have hlt := h.memberOwner_lt _ (List.mem_of_getElem? howner)
    have hget := Array.getElem?_eq_getElem hlt
    exact ⟨_, hget, (h.members.mem_iff hget).mpr howner⟩
  aliases_listed := by
    rw [h.aliases.flatMap_eq, ← length_aliasOwners, List.map_id]
    exact flatMap_idxsOf_perm List.nodup_range fun p hp =>
      List.mem_range.mpr (h.aliasOwner_lt p hp)
  aliasPackage := by
    intro a e he
    have howner : t.aliasOwners[a]? = some e.package := by simp [aliasOwners, he]
    have hlt := h.aliasOwner_lt _ (List.mem_of_getElem? howner)
    have hget := Array.getElem?_eq_getElem hlt
    exact ⟨_, hget, (h.aliases.mem_iff hget).mpr howner⟩

end Linked

/-- Whatever is called, and whichever calls fail, the tables are a forest. -/
theorem isForest_run (calls : List Call) : (run {} calls).IsForest :=
  (linked_run calls).isForest

end Tables

end ApiSurface
