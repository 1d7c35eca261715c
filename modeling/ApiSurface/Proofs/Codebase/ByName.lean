import ApiSurface.Proofs.Codebase.Renumbering
import ApiSurface.Proofs.Codebase.SuperClasses
import ApiSurface.Proofs.Codebase.Traversal
import ApiSurface.Proofs.Element.Inheritance

/-!
Codebases as they are seen by names.

Whoever knows elements by their names and keys cannot tell mirrored tables apart: looked up by a
name or walked to, an element is the same in what it is declared as, in what it inherits and in what
belongs to it.
-/

namespace ApiSurface

theorem Tables.Linked.lt_of_mem_offered {t : Tables} (h : t.Linked) {c : ClassId}
    {e : ClassId × MemberId} (he : e ∈ t.offered c) : e.2 < t.members.size := by
  obtain ⟨a, _, hmem⟩ := List.mem_flatMap.mp he
  obtain ⟨m, hm, rfl⟩ := List.mem_map.mp hmem
  exact (h.mem_members_iff.mp (List.mem_of_mem_filter hm)).1

namespace Tables.Mirrors

variable {ρ : Renumbering} {t t' : Tables} (h : t.Mirrors ρ t')
include h

theorem package_lt_iff {p : PackageId} : ρ .package p < t'.packages.size ↔ p < t.packages.size := by
  rw [← count_package, ← count_package, h.count]
  exact h.lt_count_iff

theorem cls_lt_iff {c : ClassId} : ρ .cls c < t'.classes.size ↔ c < t.classes.size := by
  rw [← count_cls, ← count_cls, h.count]
  exact h.lt_count_iff

theorem alias_lt_iff {a : AliasId} : ρ .typeAlias a < t'.aliases.size ↔ a < t.aliases.size := by
  rw [← count_typeAlias, ← count_typeAlias, h.count]
  exact h.lt_count_iff

theorem decl_packageAt (p : PackageId) :
    (t'.packageAt (ρ .package p)).decl = (t.packageAt p).decl := by
  have hitem := h.getElem?_packages p
  rw [packageAt, packageAt, Array.getD_eq_getD_getElem?, Array.getD_eq_getD_getElem?]
  generalize t'.packages[ρ .package p]? = u', t.packages[p]? = u at hitem ⊢
  cases u with
  | none => rw [Option.map_eq_none_iff.mp hitem]
  | some e =>
    obtain ⟨e', rfl, he'⟩ := Option.map_eq_some_iff.mp hitem
    exact Item.package.inj he'

/-- The declaration of a class and its container. -/
theorem classAt (c : ClassId) : (t'.classAt (ρ .cls c)).decl = (t.classAt c).decl ∧
    (t'.classAt (ρ .cls c)).container = (t.classAt c).container.map (ρ .cls) := by
  have hitem := h.getElem?_classes c
  rw [Tables.classAt, Tables.classAt, Array.getD_eq_getD_getElem?, Array.getD_eq_getD_getElem?]
  generalize t'.classes[ρ .cls c]? = u', t.classes[c]? = u at hitem ⊢
  cases u with
  | none =>
    rw [Option.map_eq_none_iff.mp hitem]
    exact ⟨rfl, rfl⟩
  | some e =>
    obtain ⟨e', rfl, he'⟩ := Option.map_eq_some_iff.mp hitem
    obtain ⟨hdecl, _, hcontainer⟩ := item_eq_renumber_iff.mp he'
    exact ⟨hdecl, hcontainer⟩

theorem package_classAt {c : ClassId} (hc : c < t.classes.size) :
    (t'.classAt (ρ .cls c)).package = ρ .package (t.classAt c).package :=
  (item_eq_renumber_iff.mp (h.embeds.classAt hc)).2.1

theorem decl_aliasAt (a : AliasId) : (t'.aliasAt (ρ .typeAlias a)).decl = (t.aliasAt a).decl := by
  have hitem := h.getElem?_aliases a
  rw [aliasAt, aliasAt, Array.getD_eq_getD_getElem?, Array.getD_eq_getD_getElem?]
  generalize t'.aliases[ρ .typeAlias a]? = u', t.aliases[a]? = u at hitem ⊢
  cases u with
  | none => rw [Option.map_eq_none_iff.mp hitem]
  | some e =>
    obtain ⟨e', rfl, he'⟩ := Option.map_eq_some_iff.mp hitem
    exact (Item.typeAlias.inj he').1

theorem package_aliasAt {a : AliasId} (ha : a < t.aliases.size) :
    (t'.aliasAt (ρ .typeAlias a)).package = ρ .package (t.aliasAt a).package := by
  have hitem := h.getElem?_aliases a
  have he := Array.getElem?_eq_getElem ha
  rw [he] at hitem
  obtain ⟨e', he', hplain⟩ := Option.map_eq_some_iff.mp hitem
  rw [aliasAt_eq he, aliasAt_eq he']
  exact (Item.typeAlias.inj hplain).2

/-- A member is the same but for the number of its class and the identity of its type. -/
theorem memberAt {m : MemberId} (hm : m < t.members.size) :
    ∃ ty, t'.memberAt (ρ .member m) =
        { t.memberAt m with declaredIn := ρ .cls (t.memberAt m).declaredIn, ty } ∧
      ty.plain = (t.memberAt m).ty.plain := by
  have hitem := h.getElem?_members m
  have he := Array.getElem?_eq_getElem hm
  rw [he] at hitem
  obtain ⟨e', he', hplain⟩ := Option.map_eq_some_iff.mp hitem
  rw [memberAt_eq he, memberAt_eq he']
  exact ⟨e'.ty, Item.plain_member_eq_iff.mp hplain⟩

/-! What packages and classes list. -/

theorem classes_packageAt (p : PackageId) :
    (t'.packageAt (ρ .package p)).classes = (t.packageAt p).classes.map (ρ .cls) :=
  h.children (.classes p)

theorem aliases_packageAt (p : PackageId) :
    (t'.packageAt (ρ .package p)).aliases = (t.packageAt p).aliases.map (ρ .typeAlias) :=
  h.children (.aliases p)

theorem nested_classAt (c : ClassId) :
    (t'.classAt (ρ .cls c)).nested = (t.classAt c).nested.map (ρ .cls) :=
  h.children (.nested c)

theorem members_classAt (c : ClassId) :
    (t'.classAt (ρ .cls c)).members = (t.classAt c).members.map (ρ .member) :=
  h.children (.members c)

/-! What encloses a class, and with it the keys of members. -/

theorem enclosing (c : ClassId) : t'.enclosing (ρ .cls c) = (t.enclosing c).map (ρ .cls) := by
  induction c using Nat.strongRecOn with
  | ind c ih =>
    rw [h.linked'.enclosing_eq, h.linked.enclosing_eq c, (h.classAt c).2]
    cases hcontainer : (t.classAt c).container with
    | none => rfl
    | some outer =>
      rw [Option.map_some, Option.elim_some, Option.elim_some,
        ih outer (h.linked.container_lt hcontainer).1]
      rfl

theorem scope (e : MemberEntry) (ty : Ty) :
    t'.scope { e with declaredIn := ρ .cls e.declaredIn, ty } = t.scope e := by
  rw [Tables.scope, Tables.scope, h.enclosing, List.flatMap_map]
  simp only [(h.classAt _).1]

theorem memberKey (e : MemberEntry) (ty : Ty) :
    t'.memberKey { e with declaredIn := ρ .cls e.declaredIn, ty } = t.memberKey e := by
  have hbound :
      t'.firstBound { e with declaredIn := ρ .cls e.declaredIn, ty } = t.firstBound e := by
    funext name
    rw [firstBound, firstBound, h.scope]
  rw [Tables.memberKey, Tables.memberKey, erasedParameters, erasedParameters, hbound]

theorem keyOf {m : MemberId} (hm : m < t.members.size) : t'.keyOf (ρ .member m) = t.keyOf m := by
  obtain ⟨ty, hentry, _⟩ := h.memberAt hm
  rw [Tables.keyOf, hentry, h.memberKey]
  rfl

theorem kind_memberAt {m : MemberId} (hm : m < t.members.size) :
    (t'.memberAt (ρ .member m)).kind = (t.memberAt m).kind := by
  obtain ⟨ty, hentry, _⟩ := h.memberAt hm
  rw [hentry]

theorem isInheritable {m : MemberId} (hm : m < t.members.size) :
    t'.isInheritable (ρ .member m) = t.isInheritable m := by
  obtain ⟨ty, hentry, _⟩ := h.memberAt hm
  rw [Tables.isInheritable, hentry]
  rfl

/-! Super classes and what they offer. -/

theorem superClass? (c : ClassId) : t'.superClass? (ρ .cls c) = (t.superClass? c).map (ρ .cls) := by
  rw [Tables.superClass?, Tables.superClass?, (h.classAt c).1]
  cases (t.classAt c).decl.superType with
  | none => rfl
  | some ty => exact h.find? .cls ty.name

theorem climbs {seen chain : List ClassId} {next : Option ClassId}
    (hclimbs : t.Climbs seen next chain) :
    t'.Climbs (seen.map (ρ .cls)) (next.map (ρ .cls)) (chain.map (ρ .cls)) := by
  induction hclimbs with
  | top => exact .top
  | again known => exact .again (List.mem_map_of_mem known)
  | @up seen chain c fresh _ ih =>
    refine .up (mt (List.mem_map_of_injective (ρ .cls).injective).mp fresh) ?_
    rwa [h.superClass?]

theorem superClasses {c : ClassId} (hc : c < t.classes.size) :
    t'.superClasses (ρ .cls c) = (t.superClasses c).map (ρ .cls) := by
  have hclimbs := climbs_superClasses h.linked' (h.cls_lt_iff.mpr hc)
  rw [h.superClass?] at hclimbs
  exact hclimbs.unique (h.climbs (climbs_superClasses h.linked hc))

theorem offered {c : ClassId} (hc : c < t.classes.size) :
    t'.offered (ρ .cls c) = (t.offered c).map (Prod.map (ρ .cls) (ρ .member)) := by
  rw [Tables.offered, Tables.offered, h.superClasses hc, List.flatMap_map, List.map_flatMap]
  refine List.flatMap_congr fun a _ => ?_
  have hfilter : (t.classAt a).members.filter (t'.isInheritable ∘ ρ .member) =
      (t.classAt a).members.filter t.isInheritable :=
    List.filter_congr fun m hm => h.isInheritable (h.linked.mem_members_iff.mp hm).1
  rw [h.members_classAt, List.filter_map, hfilter, List.map_map, List.map_map]
  rfl

theorem firstOfKey {offers : List (ClassId × MemberId)}
    (hoffers : ∀ e ∈ offers, e.2 < t.members.size) (seen : List MatchKey) :
    t'.firstOfKey seen (offers.map (Prod.map (ρ .cls) (ρ .member))) =
      (t.firstOfKey seen offers).map (Prod.map (ρ .cls) (ρ .member)) := by
  induction offers generalizing seen with
  | nil => rfl
  | cons e rest ih =>
    obtain ⟨a, m⟩ := e
    obtain ⟨hm, hrest⟩ := List.forall_mem_cons.mp hoffers
    rw [List.map_cons, Prod.map_apply, Tables.firstOfKey, Tables.firstOfKey, h.keyOf hm, ih hrest,
      ih hrest]
    split_ifs <;> rfl

theorem inherited {c : ClassId} (hc : c < t.classes.size) :
    t'.inherited (ρ .cls c) = (t.inherited c).map (Prod.map (ρ .cls) (ρ .member)) := by
  have hkeys : (t.classAt c).members.map (t'.keyOf ∘ ρ .member) =
      (t.classAt c).members.map t.keyOf :=
    List.map_congr_left fun m hm => h.keyOf (h.linked.mem_members_iff.mp hm).1
  rw [Tables.inherited, Tables.inherited, h.members_classAt, List.map_map, hkeys, h.offered hc]
  exact h.firstOfKey (fun _ => h.linked.lt_of_mem_offered) _

end Tables.Mirrors

/-- The step with the new number of what it meets. -/
def Visit.renumber (ρ : Renumbering) : Visit → Visit
  | codebase => codebase
  | leaveCodebase => leaveCodebase
  | package p => package (ρ .package p)
  | leavePackage p => leavePackage (ρ .package p)
  | typeAlias a => typeAlias (ρ .typeAlias a)
  | cls c => cls (ρ .cls c)
  | leaveClass c => leaveClass (ρ .cls c)
  | constructor m => constructor (ρ .member m)
  | method m => method (ρ .member m)
  | property m => property (ρ .member m)
  | field m => field (ρ .member m)

theorem Visit.renumber_ofMember (ρ : Renumbering) (kind : MemberKind) (m : MemberId) :
    (ofMember kind m).renumber ρ = ofMember kind (ρ .member m) := by
  cases kind <;> rfl

namespace Tables.Mirrors

variable {ρ : Renumbering} {t t' : Tables} (h : t.Mirrors ρ t')
include h

theorem visitMembers (c : ClassId) :
    t'.visitMembers (ρ .cls c) = (t.visitMembers c).map (Visit.renumber ρ) := by
  rw [Tables.visitMembers, Tables.visitMembers, List.map_flatMap]
  refine List.flatMap_congr fun kind _ => ?_
  have hfilter : (t.classAt c).members.filter
      ((fun m => decide ((t'.memberAt m).kind = kind)) ∘ ρ .member) = t.membersOfKind c kind := by
    refine List.filter_congr fun m hm => ?_
    rw [Function.comp_apply, h.kind_memberAt (h.linked.mem_members_iff.mp hm).1]
  rw [membersOfKind, h.members_classAt, List.filter_map, hfilter, List.map_map, List.map_map]
  exact List.map_congr_left fun m _ => (Visit.renumber_ofMember ρ kind m).symm

theorem visitClass (nesting : Bool) {c : ClassId} (hc : c < t.classes.size) :
    t'.visitClass nesting (ρ .cls c) = (t.visitClass nesting c).map (Visit.renumber ρ) := by
  induction c, hc using h.linked.nested_induction with
  | step c hc ih =>
    have hnested : (t'.classAt (ρ .cls c)).nested.flatMap (t'.visitClass nesting) =
        ((t.classAt c).nested.flatMap (t.visitClass nesting)).map (Visit.renumber ρ) := by
      rw [h.nested_classAt, List.flatMap_map, List.map_flatMap]
      exact List.flatMap_congr fun n hn => ih n (h.linked.lt_of_mem_nested hn) hn
    rw [h.linked'.visitClass_eq nesting (h.cls_lt_iff.mpr hc), h.linked.visitClass_eq nesting hc,
      hnested, visitAt, visitAt, h.visitMembers]
    cases nesting <;> simp [Visit.renumber]

theorem visitPackage (nesting : Bool) {p : PackageId} (hp : p < t.packages.size) :
    t'.visitPackage nesting (ρ .package p) = (t.visitPackage nesting p).map (Visit.renumber ρ) := by
  have hclasses : (t'.packageAt (ρ .package p)).classes.flatMap (t'.visitClass nesting) =
      ((t.packageAt p).classes.flatMap (t.visitClass nesting)).map (Visit.renumber ρ) := by
    rw [h.classes_packageAt, List.flatMap_map, List.map_flatMap]
    exact List.flatMap_congr fun c hc =>
      h.visitClass nesting (h.linked.lt_of_mem_classes hp c hc)
  rw [Tables.visitPackage, Tables.visitPackage, hclasses, h.aliases_packageAt]
  simp [Visit.renumber]

end Tables.Mirrors

/-- A step of a walk by the name of what it meets. A member has the hook through which it is met, the
name of its class and its key. -/
inductive NamedVisit where
  | codebase
  | leaveCodebase
  | package (name : String)
  | leavePackage (name : String)
  | typeAlias (name : String)
  | cls (name : String)
  | leaveClass (name : String)
  | member (hook : MemberKind) (className : String) (key : MatchKey)
deriving DecidableEq, Repr

/-- A member by names: its declaration, its key, the class that it is seen in and the class that it
is inherited from. -/
structure MemberView where
  decl : MemberDecl
  key : MatchKey
  container : String
  inheritedFrom : Option String
deriving DecidableEq

/-- A class by names. -/
structure ClassView where
  decl : ClassDecl
  package : String
  container : Option String
  nested : List String
  members : List MemberView
  superClasses : List String
  inherited : List MemberView
deriving DecidableEq

structure PackageView where
  decl : PackageDecl
  classes : List String
  aliases : List String
deriving DecidableEq

structure AliasView where
  decl : AliasDecl
  package : String
deriving DecidableEq

def PackageRef.view (p : PackageRef) : PackageView where
  decl := p.entry.decl
  classes := p.topLevelClasses.map ClassRef.name
  aliases := p.aliases.map AliasRef.name

def AliasRef.view (a : AliasRef) : AliasView where
  decl := a.entry.decl
  package := a.package.name

/-- Types are seen without their identities. -/
def MemberRef.view (m : MemberRef) : MemberView where
  decl :=
    { kind := m.entry.kind
      name := m.entry.name
      modifiers := m.entry.modifiers
      documentation := m.entry.documentation
      typeParameters := m.entry.typeParameters
      ty := some m.entry.ty.plain
      parameters := m.entry.parameters }
  key := m.key
  container := m.container.name
  inheritedFrom := m.inheritedFrom.map ClassRef.name

def ClassRef.view (c : ClassRef) : ClassView where
  decl := c.entry.decl
  package := c.package.name
  container := c.container?.map ClassRef.name
  nested := c.nested.map ClassRef.name
  members := c.members.map MemberRef.view
  superClasses := c.superClasses.map ClassRef.name
  inherited := c.inheritedMembers.map MemberRef.view

namespace Codebase

def namedMember (cb : Codebase) (hook : MemberKind) (m : MemberId) : NamedVisit :=
  .member hook (ClassRef.name ⟨cb, (cb.tables.memberAt m).declaredIn⟩) (cb.tables.keyOf m)

def named (cb : Codebase) : Visit → NamedVisit
  | .codebase => .codebase
  | .leaveCodebase => .leaveCodebase
  | .package p => .package (PackageRef.name ⟨cb, p⟩)
  | .leavePackage p => .leavePackage (PackageRef.name ⟨cb, p⟩)
  | .typeAlias a => .typeAlias (AliasRef.name ⟨cb, a⟩)
  | .cls c => .cls (ClassRef.name ⟨cb, c⟩)
  | .leaveClass c => .leaveClass (ClassRef.name ⟨cb, c⟩)
  | .constructor m => cb.namedMember .constructor m
  | .method m => cb.namedMember .method m
  | .property m => cb.namedMember .property m
  | .field m => cb.namedMember .field m

/-- The second codebase answers by name what the first one answers, and `ρ` gives its numbers. -/
structure SameByName (ρ : Renumbering) (cb cb' : Codebase) : Prop where
  findPackage? : ∀ name, cb'.findPackage? name = (cb.findPackage? name).map (ρ .package)
  findClass? : ∀ name, cb'.findClass? name = (cb.findClass? name).map (ρ .cls)
  findAlias? : ∀ name, cb'.findAlias? name = (cb.findAlias? name).map (ρ .typeAlias)
  package : ∀ p, (cb'.package? (ρ .package p)).map PackageRef.view =
    (cb.package? p).map PackageRef.view
  cls : ∀ c, (cb'.class? (ρ .cls c)).map ClassRef.view = (cb.class? c).map ClassRef.view
  typeAlias : ∀ a, (cb'.typeAlias? (ρ .typeAlias a)).map AliasRef.view =
    (cb.typeAlias? a).map AliasRef.view
  visit : ∀ nesting, (cb'.visit nesting).map cb'.named = (cb.visit nesting).map cb.named

section

variable {ρ : Renumbering} {cb cb' : Codebase} (h : cb.tables.Mirrors ρ cb'.tables)
include h

theorem packages_of_mirrors : cb'.packages = cb.packages.map (ρ .package) := by
  have hirrefl : Std.Irrefl fun p q =>
      (cb'.tables.packageAt p).decl.name < (cb'.tables.packageAt q).decl.name :=
    ⟨fun _ => String.lt_irrefl _⟩
  apply List.Pairwise.eq_of_mem_iff (packages_pairwise h.linked')
  · rw [List.pairwise_map]
    refine (packages_pairwise h.linked).imp fun {p q} hlt => ?_
    rwa [h.decl_packageAt, h.decl_packageAt]
  · intro p'
    obtain ⟨p, rfl⟩ := (ρ .package).surjective p'
    rw [mem_packages_iff h.linked', List.mem_map_of_injective (ρ .package).injective,
      mem_packages_iff h.linked, h.package_lt_iff]

theorem visit_of_mirrors (nesting : Bool) :
    cb'.visit nesting = (cb.visit nesting).map (Visit.renumber ρ) := by
  have hpackages : cb'.packages.flatMap (cb'.tables.visitPackage nesting) =
      (cb.packages.flatMap (cb.tables.visitPackage nesting)).map (Visit.renumber ρ) := by
    rw [packages_of_mirrors h, List.flatMap_map, List.map_flatMap]
    exact List.flatMap_congr fun p hp =>
      h.visitPackage nesting ((mem_packages_iff h.linked).mp hp)
  rw [visit, visit, hpackages]
  simp [Visit.renumber]

theorem packageName_of_mirrors (p : PackageId) :
    PackageRef.name ⟨cb', ρ .package p⟩ = PackageRef.name ⟨cb, p⟩ :=
  congrArg PackageDecl.name (h.decl_packageAt p)

theorem className_of_mirrors (c : ClassId) :
    ClassRef.name ⟨cb', ρ .cls c⟩ = ClassRef.name ⟨cb, c⟩ :=
  congrArg ClassDecl.name (h.classAt c).1

theorem aliasName_of_mirrors (a : AliasId) :
    AliasRef.name ⟨cb', ρ .typeAlias a⟩ = AliasRef.name ⟨cb, a⟩ :=
  congrArg AliasDecl.name (h.decl_aliasAt a)

theorem namedMember_of_mirrors {m : MemberId} (hm : m < cb.tables.members.size)
    (hook : MemberKind) : cb'.namedMember hook (ρ .member m) = cb.namedMember hook m := by
  obtain ⟨ty, hentry, _⟩ := h.memberAt hm
  rw [namedMember, namedMember, h.keyOf hm, hentry, className_of_mirrors h]

theorem named_of_mirrors {v : Visit} (hv : cb.tables.Meets v) :
    cb'.named (v.renumber ρ) = cb.named v := by
  cases hv with
  | codebase => rfl
  | leaveCodebase => rfl
  | package _ => exact congrArg NamedVisit.package (packageName_of_mirrors h _)
  | leavePackage _ => exact congrArg NamedVisit.leavePackage (packageName_of_mirrors h _)
  | typeAlias _ => exact congrArg NamedVisit.typeAlias (aliasName_of_mirrors h _)
  | cls _ => exact congrArg NamedVisit.cls (className_of_mirrors h _)
  | leaveClass _ => exact congrArg NamedVisit.leaveClass (className_of_mirrors h _)
  | member hm hmet => cases hmet <;> exact namedMember_of_mirrors h hm _

theorem memberView_of_mirrors {m : MemberId} (hm : m < cb.tables.members.size) (c : ClassId)
    (origin : Option ClassId) :
    MemberRef.view ⟨cb', ρ .member m, ⟨cb', ρ .cls c⟩, origin.map (⟨cb', ρ .cls ·⟩)⟩ =
      MemberRef.view ⟨cb, m, ⟨cb, c⟩, origin.map (⟨cb, ·⟩)⟩ := by
  obtain ⟨ty, hentry, hty⟩ := h.memberAt hm
  have hkey := h.keyOf hm
  have horigin : (origin.map fun a => ClassRef.mk cb' (ρ .cls a)).map ClassRef.name =
      (origin.map fun a => ClassRef.mk cb a).map ClassRef.name := by
    cases origin with
    | none => rfl
    | some a => exact congrArg some (className_of_mirrors h a)
  rw [MemberRef.view, MemberRef.view, MemberView.mk.injEq]
  refine ⟨?_, hkey, className_of_mirrors h c, horigin⟩
  simp only [MemberRef.entry, hentry, hty]

theorem classView_of_mirrors {c : ClassId} (hc : c < cb.tables.classes.size) :
    ClassRef.view ⟨cb', ρ .cls c⟩ = ClassRef.view ⟨cb, c⟩ := by
  obtain ⟨hdecl, hcontainer⟩ := h.classAt c
  have hname : ClassRef.name ∘ (⟨cb', ρ .cls ·⟩) = ClassRef.name ∘ (⟨cb, ·⟩) :=
    funext fun a => className_of_mirrors h a
  rw [ClassRef.view, ClassRef.view, ClassView.mk.injEq]
  refine ⟨hdecl, ?_, ?_, ?_, ?_, ?_, ?_⟩
  · simp only [ClassRef.package, ClassRef.entry, h.package_classAt hc]
    exact packageName_of_mirrors h _
  · simp only [ClassRef.container?, ClassRef.entry, hcontainer, Option.map_map]
    exact congrArg (Option.map · _) hname
  · simp only [ClassRef.nested, ClassRef.entry, h.nested_classAt, List.map_map]
    exact congrArg (List.map · _) hname
  · simp only [ClassRef.members, ClassRef.entry, h.members_classAt, List.map_map]
    refine List.map_congr_left fun m hm => ?_
    exact memberView_of_mirrors h (h.linked.mem_members_iff.mp hm).1 c none
  · simp only [ClassRef.superClasses, h.superClasses hc, List.map_map]
    exact congrArg (List.map · _) hname
  · simp only [ClassRef.inheritedMembers, h.inherited hc, List.map_map]
    refine List.map_congr_left fun e he => ?_
    have hoffered := (cb.tables.firstOfKey_sublist _ _).subset he
    exact memberView_of_mirrors h (h.linked.lt_of_mem_offered hoffered) c (some e.1)

theorem packageView_of_mirrors (p : PackageId) :
    PackageRef.view ⟨cb', ρ .package p⟩ = PackageRef.view ⟨cb, p⟩ := by
  rw [PackageRef.view, PackageRef.view, PackageView.mk.injEq]
  refine ⟨h.decl_packageAt p, ?_, ?_⟩
  · simp only [PackageRef.topLevelClasses, PackageRef.entry, h.classes_packageAt, List.map_map]
    exact List.map_congr_left fun c _ => className_of_mirrors h c
  · simp only [PackageRef.aliases, PackageRef.entry, h.aliases_packageAt, List.map_map]
    exact List.map_congr_left fun a _ => aliasName_of_mirrors h a

theorem aliasView_of_mirrors {a : AliasId} (ha : a < cb.tables.aliases.size) :
    AliasRef.view ⟨cb', ρ .typeAlias a⟩ = AliasRef.view ⟨cb, a⟩ := by
  rw [AliasRef.view, AliasRef.view, AliasView.mk.injEq]
  refine ⟨h.decl_aliasAt a, ?_⟩
  simp only [AliasRef.package, AliasRef.entry, h.package_aliasAt ha]
  exact packageName_of_mirrors h _

/-- Mirrored tables make codebases that are the same by name. -/
theorem sameByName_of_mirrors : cb.SameByName ρ cb' where
  findPackage? := h.find? .package
  findClass? := h.find? .cls
  findAlias? := h.find? .typeAlias
  package := by
    intro p
    simp only [package?, h.package_lt_iff]
    split_ifs
    · exact congrArg some (packageView_of_mirrors h p)
    · rfl
  cls := by
    intro c
    simp only [class?, h.cls_lt_iff]
    split_ifs with hc
    · exact congrArg some (classView_of_mirrors h hc)
    · rfl
  typeAlias := by
    intro a
    simp only [typeAlias?, h.alias_lt_iff]
    split_ifs with ha
    · exact congrArg some (aliasView_of_mirrors h ha)
    · rfl
  visit := by
    intro nesting
    rw [visit_of_mirrors h, List.map_map]
    refine List.map_congr_left fun v hv => ?_
    exact named_of_mirrors h ((mem_visit_iff h.linked nesting).mp hv)

end

end Codebase

end ApiSurface
