import ApiSurface.Element.Basic
import ApiSurface.Proofs.Codebase.Containment
import ApiSurface.Proofs.Ty.Alignment
import Mathlib.Data.List.Forall2

/-!
Codebases that are written alike.

Two lists of calls are aligned if they differ only in what types may differ in, with one renaming of
type variables for both. A renaming is a relation: `ρ x y` if it takes `x` to `y`. It is applied to
every type variable, those of declarations and those of uses.

Aligned calls get the same answers and leave aligned tables. If the renaming is one-to-one and no
wildcard is shown, members with the same number then have the same key, so that they match.
-/

namespace ApiSurface

section

variable (ρ : String → String → Prop)

structure TypeParameter.Aligned (q q' : TypeParameter) : Prop where
  name : ρ q.name q'.name
  bounds : List.Forall₂ (Ty.Aligned ρ) q.bounds q'.bounds

/-- The second parameter is the first with an aligned type. -/
inductive ParameterDecl.Aligned (p : ParameterDecl) : ParameterDecl → Prop where
  | mk {ty' : Ty} (ty : p.ty.Aligned ρ ty') : Aligned p { p with ty := ty' }

inductive ClassDecl.Aligned (d : ClassDecl) : ClassDecl → Prop where
  | mk {qs' : List TypeParameter} {superType' : Option ClassTy} {interfaces' : List ClassTy}
      (typeParameters : List.Forall₂ (TypeParameter.Aligned ρ) d.typeParameters qs')
      (superType : Option.Rel ClassTy.Aligned d.superType superType')
      (interfaces : List.Forall₂ ClassTy.Aligned d.interfaces interfaces') :
      Aligned d
        { d with typeParameters := qs', superType := superType', interfaces := interfaces' }

inductive MemberDecl.Aligned (d : MemberDecl) : MemberDecl → Prop where
  | mk {qs' : List TypeParameter} {ty' : Option Ty} {ps' : List ParameterDecl}
      (typeParameters : List.Forall₂ (TypeParameter.Aligned ρ) d.typeParameters qs')
      (ty : Option.Rel (Ty.Aligned ρ) d.ty ty')
      (parameters : List.Forall₂ (ParameterDecl.Aligned ρ) d.parameters ps') :
      Aligned d { d with typeParameters := qs', ty := ty', parameters := ps' }

inductive AliasDecl.Aligned (d : AliasDecl) : AliasDecl → Prop where
  | mk {qs' : List TypeParameter} {ty' : Ty}
      (typeParameters : List.Forall₂ (TypeParameter.Aligned ρ) d.typeParameters qs')
      (ty : d.ty.Aligned ρ ty') : Aligned d { d with typeParameters := qs', ty := ty' }

/-- Calls that differ only in what aligned types may differ in. -/
inductive Call.Aligned : Call → Call → Prop where
  | addPackage {decl : PackageDecl} : Aligned (.addPackage decl) (.addPackage decl)
  | addClass {package : PackageId} {container : Option ClassId} {decl decl' : ClassDecl}
      (aligned : decl.Aligned ρ decl') :
      Aligned (.addClass package container decl) (.addClass package container decl')
  | addMember {c : ClassId} {decl decl' : MemberDecl} (aligned : decl.Aligned ρ decl') :
      Aligned (.addMember c decl) (.addMember c decl')
  | addAlias {package : PackageId} {decl decl' : AliasDecl} (aligned : decl.Aligned ρ decl') :
      Aligned (.addAlias package decl) (.addAlias package decl')
  | setType {target : TypeSlot} {ty ty' : Ty} (aligned : ty.Aligned ρ ty') :
      Aligned (.setType target ty) (.setType target ty')

inductive ClassEntry.Aligned (e : ClassEntry) : ClassEntry → Prop where
  | mk {decl' : ClassDecl} (decl : e.decl.Aligned ρ decl') : Aligned e { e with decl := decl' }

inductive MemberEntry.Aligned (e : MemberEntry) : MemberEntry → Prop where
  | mk {qs' : List TypeParameter} {ty' : Ty} {ps' : List ParameterDecl}
      (typeParameters : List.Forall₂ (TypeParameter.Aligned ρ) e.typeParameters qs')
      (ty : e.ty.Aligned ρ ty')
      (parameters : List.Forall₂ (ParameterDecl.Aligned ρ) e.parameters ps') :
      Aligned e { e with typeParameters := qs', ty := ty', parameters := ps' }

inductive AliasEntry.Aligned (e : AliasEntry) : AliasEntry → Prop where
  | mk {decl' : AliasDecl} (decl : e.decl.Aligned ρ decl') : Aligned e { e with decl := decl' }

/-- Tables with the same packages and indexes and with aligned entries. -/
inductive Tables.Aligned (t : Tables) : Tables → Prop where
  | mk {classes' : Array ClassEntry} {members' : Array MemberEntry} {aliases' : Array AliasEntry}
      (classes : List.Forall₂ (ClassEntry.Aligned ρ) t.classes.toList classes'.toList)
      (members : List.Forall₂ (MemberEntry.Aligned ρ) t.members.toList members'.toList)
      (aliases : List.Forall₂ (AliasEntry.Aligned ρ) t.aliases.toList aliases'.toList) :
      Aligned t { t with classes := classes', members := members', aliases := aliases' }

/-- The same answer with aligned tables. -/
def AnswersAligned {α : Type} (r r' : α × Tables) : Prop := r.1 = r'.1 ∧ r.2.Aligned ρ r'.2

end

section

variable {α : Type} {R : α → α → Prop}

theorem rel_getElem? {l l' : List α} (h : List.Forall₂ R l l') (i : Nat) :
    Option.Rel R l[i]? l'[i]? := by
  induction h generalizing i with
  | nil => exact .none
  | cons hab _ ih =>
    cases i with
    | zero => exact .some hab
    | succ i => exact ih i

theorem forall₂_modify {f f' : α → α} (hf : ∀ a a', R a a' → R (f a) (f' a')) {l l' : List α}
    (h : List.Forall₂ R l l') (i : Nat) : List.Forall₂ R (l.modify i f) (l'.modify i f') := by
  induction h generalizing i with
  | nil => exact (List.modify_nil f i).symm ▸ (List.modify_nil f' i).symm ▸ .nil
  | cons hab hrest ih =>
    cases i with
    | zero => exact .cons (hf _ _ hab) hrest
    | succ i => exact .cons hab (ih i)

variable {as as' : Array α}

theorem forall₂_push (h : List.Forall₂ R as.toList as'.toList) {a a' : α} (ha : R a a') :
    List.Forall₂ R (as.push a).toList (as'.push a').toList := by
  rw [Array.toList_push, Array.toList_push]
  exact List.rel_append h (.cons ha .nil)

theorem forall₂_modify_array (h : List.Forall₂ R as.toList as'.toList) {f f' : α → α}
    (hf : ∀ a a', R a a' → R (f a) (f' a')) (i : Nat) :
    List.Forall₂ R (as.modify i f).toList (as'.modify i f').toList := by
  rw [Array.toList_modify, Array.toList_modify]
  exact forall₂_modify hf h i

theorem rel_getElem?_array (h : List.Forall₂ R as.toList as'.toList) (i : Nat) :
    Option.Rel R as[i]? as'[i]? := by
  rw [← Array.getElem?_toList, ← Array.getElem?_toList]
  exact rel_getElem? h i

theorem rel_getD (h : List.Forall₂ R as.toList as'.toList) {d : α} (hd : R d d) (i : Nat) :
    R (as.getD i d) (as'.getD i d) := by
  have hi := rel_getElem?_array h i
  rw [Array.getD_eq_getD_getElem?, Array.getD_eq_getD_getElem?]
  generalize as[i]? = x, as'[i]? = x' at hi ⊢
  cases hi with
  | none => exact hd
  | some ha => exact ha

end

section

variable {ρ : String → String → Prop}

theorem ClassDecl.Aligned.name {d d' : ClassDecl} (h : d.Aligned ρ d') : d.name = d'.name := by
  cases h; rfl

theorem ClassEntry.Aligned.name {e e' : ClassEntry} (h : e.Aligned ρ e') :
    e.decl.name = e'.decl.name := by
  cases h with
  | mk decl => exact decl.name

theorem ClassEntry.Aligned.container {e e' : ClassEntry} (h : e.Aligned ρ e') :
    e.container = e'.container := by
  cases h; rfl

theorem MemberEntry.Aligned.parameters {e e' : MemberEntry} (h : e.Aligned ρ e') :
    List.Forall₂ (ParameterDecl.Aligned ρ) e.parameters e'.parameters := by
  obtain ⟨_, _, parameters⟩ := h
  exact parameters

theorem ParameterDecl.Aligned.ty {p p' : ParameterDecl} (h : p.Aligned ρ p') :
    p.ty.Aligned ρ p'.ty := by
  obtain ⟨ty⟩ := h
  exact ty

theorem ClassEntry.Aligned.typeParameters {e e' : ClassEntry} (h : e.Aligned ρ e') :
    List.Forall₂ (TypeParameter.Aligned ρ) e.decl.typeParameters e'.decl.typeParameters := by
  obtain ⟨⟨typeParameters, _, _⟩⟩ := h
  exact typeParameters

end

/-- Outcomes that fail with the same error, or answer with related values. -/
inductive OutcomeRel {α : Type} (R : α → α → Prop) : Except Error α → Except Error α → Prop where
  | error {e : Error} : OutcomeRel R (.error e) (.error e)
  | ok {a a' : α} (rel : R a a') : OutcomeRel R (.ok a) (.ok a')

theorem OutcomeRel.bind {α β : Type} {R : α → α → Prop} {S : β → β → Prop}
    {x x' : Except Error α} {f f' : α → Except Error β} (hx : OutcomeRel R x x')
    (hf : ∀ a a', R a a' → OutcomeRel S (f a) (f' a')) : OutcomeRel S (x >>= f) (x' >>= f') := by
  cases hx with
  | error => exact .error
  | ok rel => exact hf _ _ rel

namespace Tables.Aligned

variable {ρ : String → String → Prop} {t t' : Tables}

theorem size_classes (h : t.Aligned ρ t') : t.classes.size = t'.classes.size := by
  cases h with
  | mk classes _ _ => exact classes.length_eq

theorem size_members (h : t.Aligned ρ t') : t.members.size = t'.members.size := by
  cases h with
  | mk _ members _ => exact members.length_eq

theorem size_aliases (h : t.Aligned ρ t') : t.aliases.size = t'.aliases.size := by
  cases h with
  | mk _ _ aliases => exact aliases.length_eq

/-! Entries with the same number are aligned, and so are the types of classes. -/

theorem getElem?_classes (h : t.Aligned ρ t') (c : ClassId) :
    Option.Rel (ClassEntry.Aligned ρ) t.classes[c]? t'.classes[c]? := by
  cases h with
  | mk classes _ _ => exact rel_getElem?_array classes c

theorem getElem?_members (h : t.Aligned ρ t') (m : MemberId) :
    Option.Rel (MemberEntry.Aligned ρ) t.members[m]? t'.members[m]? := by
  cases h with
  | mk _ members _ => exact rel_getElem?_array members m

theorem getElem?_aliases (h : t.Aligned ρ t') (a : AliasId) :
    Option.Rel (AliasEntry.Aligned ρ) t.aliases[a]? t'.aliases[a]? := by
  cases h with
  | mk _ _ aliases => exact rel_getElem?_array aliases a

theorem classAt (h : t.Aligned ρ t') (c : ClassId) : (t.classAt c).Aligned ρ (t'.classAt c) := by
  cases h with
  | mk classes _ _ =>
    have hdefault : ClassEntry.Aligned ρ default default := .mk (.mk .nil .none .nil)
    exact rel_getD classes hdefault c

theorem memberAt (h : t.Aligned ρ t') (m : MemberId) :
    (t.memberAt m).Aligned ρ (t'.memberAt m) := by
  cases h with
  | mk _ members _ =>
    have hdefault : MemberEntry.Aligned ρ default default := .mk .nil (.cls .topLevel) .nil
    exact rel_getD members hdefault m

theorem classTyWithin (h : t.Aligned ρ t') (p : Ident) (n : Nat) (c : ClassId) :
    (t.classTyWithin p n c).Aligned (t'.classTyWithin p n c) := by
  induction n generalizing p c with
  | zero =>
    unfold Tables.classTyWithin
    have hentry := h.classAt c
    generalize t.classAt c = e, t'.classAt c = e' at hentry ⊢
    obtain ⟨⟨_, _, _⟩⟩ := hentry
    exact .topLevel
  | succ n ih =>
    unfold Tables.classTyWithin
    have hentry := h.classAt c
    generalize t.classAt c = e, t'.classAt c = e' at hentry ⊢
    obtain ⟨⟨_, _, _⟩⟩ := hentry
    dsimp only
    cases e.container with
    | none => exact .topLevel
    | some outer =>
      cases e.decl.modifiers.isStatic with
      | true => exact .topLevel
      | false => exact .inner (ih _ outer)

/-! No check looks at what aligned declarations may differ in. -/

theorem checkContainer (h : t.Aligned ρ t') (package : PackageId) (container : Option ClassId)
    (name : String) :
    t.checkContainer package container name = t'.checkContainer package container name := by
  cases container with
  | none => rfl
  | some outer =>
    have hentry := h.getElem?_classes outer
    simp only [Tables.checkContainer]
    generalize t.classes[outer]? = e, t'.classes[outer]? = e' at hentry ⊢
    cases hentry with
    | none => rfl
    | some he =>
      obtain ⟨⟨_, _, _⟩⟩ := he
      rfl

theorem checkClass (h : t.Aligned ρ t') (package : PackageId) (container : Option ClassId)
    (name : String) :
    t.checkClass package container name = t'.checkClass package container name := by
  have hcontainer := h.checkContainer package container name
  rw [Tables.checkClass, Tables.checkClass, hcontainer]
  cases h
  rfl

theorem linkClass (h : t.Aligned ρ t') (package : PackageId) (container : Option ClassId) :
    (t.linkClass package container).Aligned ρ (t'.linkClass package container) := by
  have hsize := h.size_classes
  cases h with
  | mk classes members aliases =>
    cases container with
    | none =>
      simp only [Tables.linkClass, hsize]
      exact .mk classes members aliases
    | some outer =>
      simp only [Tables.linkClass, hsize]
      refine .mk (forall₂_modify_array classes ?_ outer) members aliases
      rintro e _ ⟨decl⟩
      exact .mk decl

theorem putClass (h : t.Aligned ρ t') (package : PackageId) (container : Option ClassId)
    {decl decl' : ClassDecl} (hdecl : decl.Aligned ρ decl') :
    (t.putClass package container decl).Aligned ρ (t'.putClass package container decl') := by
  have hlinked := h.linkClass package container
  simp only [Tables.putClass, h.size_classes, hdecl.name]
  generalize t.linkClass package container = s, t'.linkClass package container = s' at hlinked ⊢
  cases hlinked with
  | mk classes members aliases => exact .mk (forall₂_push classes (.mk hdecl)) members aliases

theorem addClass (h : t.Aligned ρ t') (package : PackageId) (container : Option ClassId)
    {decl decl' : ClassDecl} (hdecl : decl.Aligned ρ decl') :
    OutcomeRel (AnswersAligned ρ) (t.addClass package container decl)
      (t'.addClass package container decl') := by
  rw [Tables.addClass, Tables.addClass, h.checkClass, hdecl.name]
  cases t'.checkClass package container decl'.name with
  | error e => exact .error
  | ok _ => exact .ok ⟨h.size_classes, h.putClass package container hdecl⟩

theorem declaredType (h : t.Aligned ρ t') (c : ClassId) {decl decl' : MemberDecl}
    (hdecl : decl.Aligned ρ decl') :
    OutcomeRel (Ty.Aligned ρ) (t.declaredType c decl) (t'.declaredType c decl') := by
  cases hdecl with
  | mk _ ty _ =>
    rw [Tables.declaredType, Tables.declaredType, h.size_members,
      (h.classAt c).name]
    generalize decl.ty = u at ty ⊢
    cases ty with
    | some aligned => exact .ok aligned
    | none =>
      cases decl.kind with
      | constructor => exact .ok (.cls (h.classTyWithin _ c c))
      | method | property | field => exact .error

theorem putMember (h : t.Aligned ρ t') (c : ClassId) {decl decl' : MemberDecl} {ty ty' : Ty}
    (hdecl : decl.Aligned ρ decl') (hty : ty.Aligned ρ ty') :
    (t.putMember c decl ty).Aligned ρ (t'.putMember c decl' ty') := by
  cases hdecl with
  | mk typeParameters _ parameters =>
    simp only [Tables.putMember, Tables.declaredName, (h.classAt c).name, h.size_members]
    cases h with
    | mk classes members aliases =>
      refine .mk (forall₂_modify_array classes ?_ c) (forall₂_push members ?_) aliases
      · rintro e _ ⟨decl⟩
        exact .mk decl
      · exact .mk typeParameters hty parameters

theorem addMember (h : t.Aligned ρ t') (c : ClassId) {decl decl' : MemberDecl}
    (hdecl : decl.Aligned ρ decl') :
    OutcomeRel (AnswersAligned ρ) (t.addMember c decl) (t'.addMember c decl') := by
  rw [Tables.addMember, Tables.addMember, h.size_classes]
  split_ifs
  · exact .error
  · refine (h.declaredType c hdecl).bind ?_
    intro ty ty' hty
    exact .ok ⟨h.size_members, h.putMember c hdecl hty⟩

theorem putAlias (h : t.Aligned ρ t') (package : PackageId) {decl decl' : AliasDecl}
    (hdecl : decl.Aligned ρ decl') :
    (t.putAlias package decl).Aligned ρ (t'.putAlias package decl') := by
  have hname : decl.name = decl'.name := by cases hdecl; rfl
  simp only [Tables.putAlias, h.size_aliases, hname]
  cases h with
  | mk classes members aliases => exact .mk classes members (forall₂_push aliases (.mk hdecl))

theorem addAlias (h : t.Aligned ρ t') (package : PackageId) {decl decl' : AliasDecl}
    (hdecl : decl.Aligned ρ decl') :
    OutcomeRel (AnswersAligned ρ) (t.addAlias package decl) (t'.addAlias package decl') := by
  have hput := h.putAlias package hdecl
  have hsize := h.size_aliases
  have hname : decl.name = decl'.name := by cases hdecl; rfl
  rw [Tables.addAlias, Tables.addAlias, hname]
  cases h
  dsimp only
  split_ifs
  · exact .error
  · exact .error
  · exact .ok ⟨hsize, hput⟩

theorem changeMember (h : t.Aligned ρ t') (m : MemberId) {f f' : MemberEntry → MemberEntry}
    (hf : ∀ e e', e.Aligned ρ e' → (f e).Aligned ρ (f' e')) :
    (t.changeMember m f).Aligned ρ (t'.changeMember m f') := by
  cases h with
  | mk classes members aliases => exact .mk classes (forall₂_modify_array members hf m) aliases

theorem setType (h : t.Aligned ρ t') (target : TypeSlot) {ty ty' : Ty} (hty : ty.Aligned ρ ty') :
    OutcomeRel (Tables.Aligned ρ) (t.setType target ty) (t'.setType target ty') := by
  cases target with
  | member m =>
    simp only [Tables.setType, h.size_members]
    split_ifs
    · exact .error
    · refine .ok (h.changeMember m ?_)
      rintro e _ ⟨typeParameters, _, parameters⟩
      exact .mk typeParameters hty parameters
  | parameter m index =>
    have hentry := h.getElem?_members m
    simp only [Tables.setType]
    generalize t.members[m]? = e, t'.members[m]? = e' at hentry ⊢
    cases hentry with
    | none => exact .error
    | some he =>
      simp only [he.parameters.length_eq]
      split_ifs
      · exact .error
      · refine .ok (h.changeMember m ?_)
        rintro e _ ⟨typeParameters, ty, parameters⟩
        refine .mk typeParameters ty (forall₂_modify ?_ parameters index)
        rintro p _ ⟨_⟩
        exact .mk hty
  | typeAlias a =>
    have hentry := h.getElem?_aliases a
    simp only [Tables.setType]
    generalize t.aliases[a]? = e, t'.aliases[a]? = e' at hentry ⊢
    cases hentry with
    | none => exact .error
    | some he =>
      obtain ⟨⟨_, _⟩⟩ := he
      exact .error

theorem addPackage (h : t.Aligned ρ t') (decl : PackageDecl) :
    AnswersAligned ρ (t.addPackage decl) (t'.addPackage decl) := by
  obtain ⟨classes, members, aliases⟩ := h
  simp only [Tables.addPackage]
  cases t.packageIndex[decl.name]? with
  | some id => exact ⟨rfl, .mk classes members aliases⟩
  | none => exact ⟨rfl, .mk classes members aliases⟩

/-- Aligned calls to aligned tables fail alike, or answer alike and leave aligned tables. -/
theorem step (h : t.Aligned ρ t') {c c' : Call} (hc : c.Aligned ρ c') :
    OutcomeRel (AnswersAligned ρ) (t.step c) (t'.step c') := by
  have hid : ∀ r r' : Nat × Tables, AnswersAligned ρ r r' →
      OutcomeRel (AnswersAligned ρ) (.ok (Answer.id r.1, r.2)) (.ok (.id r'.1, r'.2)) := by
    rintro r r' ⟨hanswer, haligned⟩
    exact .ok ⟨congrArg Answer.id hanswer, haligned⟩
  cases hc with
  | addPackage => exact hid _ _ (h.addPackage _)
  | addClass hdecl => exact (h.addClass _ _ hdecl).bind hid
  | addMember hdecl => exact (h.addMember _ hdecl).bind hid
  | addAlias hdecl => exact (h.addAlias _ hdecl).bind hid
  | setType hty => exact (h.setType _ hty).bind fun _ _ haligned => .ok ⟨rfl, haligned⟩

theorem call (h : t.Aligned ρ t') {c c' : Call} (hc : c.Aligned ρ c') :
    AnswersAligned ρ (t.call c) (t'.call c') := by
  have hstep := h.step hc
  rw [Tables.call, Tables.call]
  generalize t.step c = r, t'.step c' = r' at hstep ⊢
  cases hstep with
  | error => exact ⟨rfl, h⟩
  | ok rel => exact ⟨congrArg Except.ok rel.1, rel.2⟩

/-- Aligned calls get the same answers and leave aligned tables. -/
theorem run (h : t.Aligned ρ t') {cs cs' : List Call} (hcs : List.Forall₂ (Call.Aligned ρ) cs cs') :
    t.answers cs = t'.answers cs' ∧ (t.run cs).Aligned ρ (t'.run cs') := by
  induction hcs generalizing t t' with
  | nil => exact ⟨rfl, h⟩
  | cons hc _ ih =>
    obtain ⟨hanswer, haligned⟩ := h.call hc
    obtain ⟨hanswers, hrun⟩ := ih haligned
    exact ⟨congrArg₂ List.cons hanswer hanswers, hrun⟩

end Tables.Aligned

namespace Tables

/-- No parameter type and no first bound of a type parameter is a wildcard or an array of
wildcards. -/
structure NoBareWildcard (t : Tables) : Prop where
  parameters : ∀ e ∈ t.members, ∀ p ∈ e.parameters, p.ty.endsInWildcard = false
  memberBounds : ∀ e ∈ t.members, ∀ q ∈ e.typeParameters, ∀ b ∈ q.bounds.head?,
    b.endsInWildcard = false
  classBounds : ∀ e ∈ t.classes, ∀ q ∈ e.decl.typeParameters, ∀ b ∈ q.bounds.head?,
    b.endsInWildcard = false

theorem memberAt_mem {t : Tables} {m : MemberId} (hm : m < t.members.size) :
    t.memberAt m ∈ t.members := by
  rw [memberAt, Array.getD_eq_getD_getElem?, Array.getElem?_eq_getElem hm]
  exact Array.getElem_mem hm

theorem NoBareWildcard.scope {t : Tables} (h : t.NoBareWildcard) {e : MemberEntry}
    (he : e ∈ t.members) :
    ∀ q ∈ t.scope e, ∀ b ∈ q.bounds.head?, b.endsInWildcard = false := by
  intro q hq
  rcases List.mem_append.mp hq with hown | hclass
  · exact h.memberBounds e he q hown
  · obtain ⟨c, _, hqc⟩ := List.mem_flatMap.mp hclass
    cases hc : t.classes[c]? with
    | none =>
      rw [classAt_eq_default hc] at hqc
      cases hqc
    | some d =>
      rw [classAt_eq hc] at hqc
      exact h.classBounds d (Array.mem_of_getElem? hc) q hqc

/-- Under a one-to-one renaming, the lookup of a name finds the same position. -/
theorem find?_aligned {ρ : String → String → Prop} (hρ : Relator.BiUnique ρ)
    {qs qs' : List TypeParameter} (h : List.Forall₂ (TypeParameter.Aligned ρ) qs qs')
    {x y : String} (hxy : ρ x y) :
    Option.Rel (TypeParameter.Aligned ρ) (qs.find? (·.name == x)) (qs'.find? (·.name == y)) := by
  induction h with
  | nil => exact .none
  | @cons q q' qs qs' hq _ ih =>
    have hname : (q.name == x) = (q'.name == y) := by
      rw [Bool.eq_iff_iff, beq_iff_eq, beq_iff_eq]
      exact Relator.rel_eq hρ hq.name hxy
    rw [List.find?_cons, List.find?_cons, hname]
    cases q'.name == y with
    | true => exact .some hq
    | false => exact ih

namespace Aligned

variable {ρ : String → String → Prop} {t t' : Tables} {e e' : MemberEntry}

theorem scope (h : t.Aligned ρ t') (he : e.Aligned ρ e') :
    List.Forall₂ (TypeParameter.Aligned ρ) (t.scope e) (t'.scope e') := by
  obtain ⟨typeParameters, _, _⟩ := he
  have henclosing := enclosing_congr (fun c => (h.classAt c).container) e.declaredIn
  rw [Tables.scope, Tables.scope, ← henclosing]
  refine List.rel_append typeParameters ?_
  refine List.rel_flatMap (R := Eq) (List.forall₂_same.mpr fun _ _ => rfl) ?_
  rintro c _ rfl
  exact (h.classAt c).typeParameters

section

variable (hρ : Relator.BiUnique ρ) (hplain : t.NoBareWildcard) (hmem : e ∈ t.members)
  (h : t.Aligned ρ t') (he : e.Aligned ρ e')
include hρ hplain hmem h he

theorem firstBound : Ty.BoundsAligned ρ (t.firstBound e) (t'.firstBound e') := by
  intro x y hxy
  have hfind := find?_aligned hρ (h.scope he) hxy
  have hbound : ∀ q ∈ (t.scope e).find? (·.name == x), ∀ b ∈ q.bounds.head?,
      b.endsInWildcard = false :=
    fun q hq => hplain.scope hmem q (List.mem_of_find?_eq_some hq)
  rw [Tables.firstBound, Tables.firstBound]
  generalize (t.scope e).find? _ = q?, (t'.scope e').find? _ = q?' at hfind hbound ⊢
  cases hfind with
  | none => exact .none
  | @some q q' hq =>
    have hbounds := hq.bounds
    have hfirst := hbound q rfl
    rw [Option.bind_some, Option.bind_some]
    generalize q.bounds = bs, q'.bounds = bs' at hbounds hfirst ⊢
    cases hbounds with
    | nil => exact .none
    | cons hb _ => exact .some ⟨hb, hfirst _ rfl⟩

theorem erasedParameters : t.erasedParameters e = t'.erasedParameters e' := by
  have hbounds := firstBound hρ hplain hmem h he
  have hparameters := hplain.parameters e hmem
  have haligned := he.parameters
  rw [Tables.erasedParameters, Tables.erasedParameters]
  generalize e.parameters = ps, e'.parameters = ps' at haligned hparameters ⊢
  induction haligned with
  -- not `rfl`, which would compare the two erasures themselves
  | nil => rw [List.map_nil, List.map_nil]
  | cons hp _ ih =>
    obtain ⟨hfirst, hrest⟩ := List.forall_mem_cons.mp hparameters
    rw [List.map_cons, List.map_cons, hbounds.erasedWith hp.ty hfirst, ih hrest]

/-- Aligned members have the same key. -/
theorem memberKey : t.memberKey e = t'.memberKey e' := by
  have herased := erasedParameters hρ hplain hmem h he
  rw [Tables.memberKey, Tables.memberKey, herased]
  obtain ⟨_, _, _⟩ := he
  rfl

end

end Aligned

end Tables

/-- Members that match across codebases, together with their parameters one by one. -/
structure MemberRef.Matches (m m' : MemberRef) : Prop where
  key : m.key = m'.key
  member : (Element.member m).matchesElement (.member m') = true
  parameters : List.Forall₂
    (fun p p' => (Element.parameter p).matchesElement (.parameter p') = true)
    m.parameters m'.parameters

theorem MemberRef.matches_of_key {m m' : MemberRef} (hkey : m.key = m'.key)
    (hlength : m.entry.parameters.length = m'.entry.parameters.length) : m.Matches m' := by
  have hparameter : ∀ i, (Element.parameter ⟨m, i⟩).matchesElement (.parameter ⟨m', i⟩) = true :=
    fun i => beq_iff_eq.mpr (congrArg (MatchKey.parameter · i) hkey)
  refine ⟨hkey, beq_iff_eq.mpr hkey, ?_⟩
  rw [parameters, parameters, hlength, List.forall₂_map_left_iff, List.forall₂_map_right_iff]
  exact List.forall₂_same.mpr fun i _ => hparameter i

namespace Codebase

/-- Codebases that are built by aligned calls answer each call alike, and members with the same
number match. -/
theorem member?_matches {ρ : String → String → Prop} (hρ : Relator.BiUnique ρ)
    {calls calls' : List Call} (hcalls : List.Forall₂ (Call.Aligned ρ) calls calls')
    (number number' : Nat) (settings settings' : Settings)
    (hplain : (build number settings calls).tables.NoBareWildcard) :
    Tables.answers {} calls = Tables.answers {} calls' ∧
      ∀ id, Option.Rel MemberRef.Matches ((build number settings calls).member? id)
        ((build number' settings' calls').member? id) := by
  have hempty : Tables.Aligned ρ {} {} := .mk .nil .nil .nil
  obtain ⟨hanswers, haligned⟩ := hempty.run hcalls
  refine ⟨hanswers, fun id => ?_⟩
  have hentry := haligned.memberAt id
  have hsize := haligned.size_members
  by_cases hid : id < (Tables.run {} calls).members.size
  · have hleft : (build number settings calls).member? id = _ := if_pos hid
    have hright : (build number' settings' calls').member? id = _ := if_pos (hsize ▸ hid)
    rw [hleft, hright]
    refine .some (MemberRef.matches_of_key ?_ hentry.parameters.length_eq)
    exact Tables.Aligned.memberKey hρ hplain (Tables.memberAt_mem hid) haligned hentry
  · have hleft : (build number settings calls).member? id = none := if_neg hid
    have hright : (build number' settings' calls').member? id = none := if_neg (hsize ▸ hid)
    rw [hleft, hright]
    exact .none

/-- Calls for `Box<T extends N, N extends Number>` with an inner class `Slot`, where `Slot` has a
constructor and a method `<U extends U> put(Map<_>.Entry, T[], U)`. The variables end in `suffix`. -/
def slotCalls (suffix : String) (mods : TypeModifiers) (varargs : Bool) (args : List Ty) :
    List Call :=
  [.addPackage { name := "p" },
    .addClass 0 none
      { name := "p.Box"
        typeParameters :=
          [{ name := "T" ++ suffix, bounds := [.var { mods, name := "N" ++ suffix }] },
            { name := "N" ++ suffix, bounds := [.cls ⟨{}, mods, "java.lang.Number", none, []⟩] }] },
    .addClass 0 (some 0) { name := "p.Box.Slot" },
    .addMember 1
      { kind := .constructor, parameters := [{ ty := .var { mods, name := "T" ++ suffix } }] },
    .addMember 1
      { name := "put"
        typeParameters := [{ name := "U" ++ suffix, bounds := [.var { name := "U" ++ suffix }] }]
        ty := some (.primitive {} {} .void)
        parameters :=
          [{ ty := .cls ⟨{}, mods, "java.util.List", none, args⟩ },
            { ty := .array {} mods varargs (.var { name := "T" ++ suffix }) },
            { ty := .var { mods, name := "U" ++ suffix } }] },
    .setType (.parameter 1 0)
      (.cls ⟨{}, mods, "java.util.Map.Entry", some ⟨{}, {}, "java.util.Map", none, args⟩, []⟩)]

/-- `Box` with dots and raw maps against `Box` with arrays, maps of anything, nullable types and
renamed variables. -/
theorem member?_matches_slot :
    let calls := slotCalls "" {} true []
    let calls' := slotCalls "2" { nullability := .nullable } false [.wildcard {} {} none none]
    List.Forall₂ (Call.Aligned fun x y => x ++ "2" = y) calls calls' ∧
      (build 0 {} calls).tables.NoBareWildcard ∧
      (build 0 {} calls).tables.members.map (build 0 {} calls).tables.memberKey =
        #[.constructor ["java.lang.Number"],
          .method "put" ["java.util.Map.Entry", "java.lang.Number[]", "java.lang.Object"]] ∧
      Tables.answers {} calls = Tables.answers {} calls' ∧
      ∀ id, Option.Rel MemberRef.Matches ((build 0 {} calls).member? id)
        ((build 1 {} calls').member? id) := by
  intro calls calls'
  have hρ : Relator.BiUnique fun x y : String => x ++ "2" = y :=
    ⟨fun _ _ _ h h' => (String.append_left_inj _).mp (h.trans h'.symm),
      fun _ _ _ h h' => h.symm.trans h'⟩
  have hcalls : List.Forall₂ (Call.Aligned fun x y => x ++ "2" = y) calls calls' := by
    refine .cons .addPackage (.cons (.addClass (.mk ?_ .none .nil))
      (.cons (.addClass (.mk .nil .none .nil)) (.cons (.addMember (.mk .nil .none ?_))
        (.cons (.addMember (.mk ?_ (.some .primitive) ?_))
          (.cons (.setType (.cls (.inner .topLevel))) .nil)))))
    · exact .cons ⟨rfl, .cons (.var rfl) .nil⟩ (.cons ⟨rfl, .cons (.cls .topLevel) .nil⟩ .nil)
    · exact .cons (.mk (.var rfl)) .nil
    · exact .cons ⟨rfl, .cons (.var rfl) .nil⟩ .nil
    · exact .cons (.mk (.cls .topLevel)) (.cons (.mk (.array (.var rfl)))
        (.cons (.mk (.var rfl)) .nil))
  have hplain : (build 0 {} calls).tables.NoBareWildcard :=
    ⟨by decide +kernel, by decide +kernel, by decide +kernel⟩
  exact ⟨hcalls, hplain, by decide +kernel, member?_matches hρ hcalls 0 1 {} {} hplain⟩

end Codebase

end ApiSurface
