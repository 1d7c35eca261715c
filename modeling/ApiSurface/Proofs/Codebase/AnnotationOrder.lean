import ApiSurface.Proofs.Codebase.Containment
import Mathlib.Data.Finset.Basic

/-!
Codebases in which the order and the repetition of annotations is forgotten.

There is one list of annotations for each set of them, and `unordered` puts it in the place of every
list of the annotations of a declared element. Calls and tables are the same but for order and
repetition of annotations if this makes them equal. No call looks at annotations, so that calls that
are the same in this sense leave tables that are.
-/

namespace ApiSurface

/-- The one list for the set of these annotations. -/
noncomputable def AnnotationUse.unordered (as : List AnnotationUse) : List AnnotationUse :=
  as.toFinset.toList

namespace AnnotationUse

theorem mem_unordered {as : List AnnotationUse} {a : AnnotationUse} :
    a ∈ unordered as ↔ a ∈ as := by
  rw [unordered, Finset.mem_toList, List.mem_toFinset]

theorem unordered_eq_iff {as bs : List AnnotationUse} :
    unordered as = unordered bs ↔ ∀ a, a ∈ as ↔ a ∈ bs := by
  constructor
  · intro h a
    rw [← mem_unordered, h, mem_unordered]
  · intro h
    have hset : as.toFinset = bs.toFinset := by
      ext a
      rw [List.mem_toFinset, List.mem_toFinset, h]
    rw [unordered, unordered, hset]

theorem unordered_nil : unordered [] = [] := by
  rw [unordered, List.toFinset_nil, Finset.toList_empty]

end AnnotationUse

/-! Declarations, entries and calls without the order of annotations. -/

noncomputable def DeclModifiers.unordered (m : DeclModifiers) : DeclModifiers :=
  { m with annotations := AnnotationUse.unordered m.annotations }

noncomputable def PackageDecl.unordered (d : PackageDecl) : PackageDecl :=
  { d with modifiers := d.modifiers.unordered }

noncomputable def ClassDecl.unordered (d : ClassDecl) : ClassDecl :=
  { d with modifiers := d.modifiers.unordered }

noncomputable def ParameterDecl.unordered (d : ParameterDecl) : ParameterDecl :=
  { d with modifiers := d.modifiers.unordered }

noncomputable def MemberDecl.unordered (d : MemberDecl) : MemberDecl :=
  { d with
    modifiers := d.modifiers.unordered
    parameters := d.parameters.map ParameterDecl.unordered }

noncomputable def AliasDecl.unordered (d : AliasDecl) : AliasDecl :=
  { d with modifiers := d.modifiers.unordered }

noncomputable def Call.unordered : Call → Call
  | addPackage decl => addPackage decl.unordered
  | addClass package container decl => addClass package container decl.unordered
  | addMember c decl => addMember c decl.unordered
  | addAlias package decl => addAlias package decl.unordered
  | setType target ty => setType target ty

noncomputable def PackageEntry.unordered (e : PackageEntry) : PackageEntry :=
  { e with decl := e.decl.unordered }

noncomputable def ClassEntry.unordered (e : ClassEntry) : ClassEntry :=
  { e with decl := e.decl.unordered }

noncomputable def MemberEntry.unordered (e : MemberEntry) : MemberEntry :=
  { e with
    modifiers := e.modifiers.unordered
    parameters := e.parameters.map ParameterDecl.unordered }

noncomputable def AliasEntry.unordered (e : AliasEntry) : AliasEntry :=
  { e with decl := e.decl.unordered }

noncomputable def Tables.unordered (t : Tables) : Tables :=
  { t with
    packages := t.packages.map PackageEntry.unordered
    classes := t.classes.map ClassEntry.unordered
    members := t.members.map MemberEntry.unordered
    aliases := t.aliases.map AliasEntry.unordered }

/-! Entries that are not there have no annotations. -/

theorem DeclModifiers.unordered_default : unordered default = default :=
  congrArg (DeclModifiers.mk _ _ _ _ _) AnnotationUse.unordered_nil

theorem PackageEntry.unordered_default : unordered default = default :=
  congrArg (fun m => ({ (default : PackageEntry) with decl.modifiers := m } : PackageEntry))
    DeclModifiers.unordered_default

theorem ClassEntry.unordered_default : unordered default = default :=
  congrArg (fun m => ({ (default : ClassEntry) with decl.modifiers := m } : ClassEntry))
    DeclModifiers.unordered_default

theorem MemberEntry.unordered_default : unordered default = default :=
  congrArg (fun m => { (default : MemberEntry) with modifiers := m })
    DeclModifiers.unordered_default

theorem AliasEntry.unordered_default : unordered default = default :=
  congrArg (fun m => ({ (default : AliasEntry) with decl.modifiers := m } : AliasEntry))
    DeclModifiers.unordered_default

/-- A change of one entry that has nothing to do with `g` can come before or after `g`. -/
theorem map_modify {α : Type} {g h : α → α} (as : Array α) (i : Nat)
    (hcomm : ∀ a, h (g a) = g (h a)) : (as.map g).modify i h = (as.modify i h).map g := by
  apply Array.ext_getElem?
  intro j
  rw [Array.getElem?_modify, Array.getElem?_map, Array.getElem?_map, Array.getElem?_modify]
  split_ifs
  · rw [Option.map_map, Option.map_map]
    exact congrArg (Option.map · as[j]?) (funext hcomm)
  · rfl

theorem getD_map {α : Type} {g : α → α} {d : α} (hd : g d = d) (as : Array α) (i : Nat) :
    (as.map g).getD i d = g (as.getD i d) := by
  rw [Array.getD_eq_getD_getElem?, Array.getD_eq_getD_getElem?, Array.getElem?_map]
  cases as[i]? with
  | none => exact hd.symm
  | some a => rfl

theorem ParameterDecl.map_modify_unordered (ps : List ParameterDecl) (i : Nat) (ty : Ty) :
    (ps.map ParameterDecl.unordered).modify i (fun p => { p with ty }) =
      (ps.modify i fun p => { p with ty }).map ParameterDecl.unordered := by
  apply List.ext_getElem?
  intro j
  simp only [List.getElem?_modify, List.getElem?_map, Option.map_map, Option.map_eq_map]
  cases ps[j]? with
  | none => rfl
  | some p =>
    simp only [Option.map_some, Function.comp]
    split_ifs <;> rfl

namespace Tables

variable (t : Tables)

theorem packageAt_unordered (p : PackageId) :
    t.unordered.packageAt p = (t.packageAt p).unordered :=
  getD_map PackageEntry.unordered_default t.packages p

theorem classAt_unordered (c : ClassId) : t.unordered.classAt c = (t.classAt c).unordered :=
  getD_map ClassEntry.unordered_default t.classes c

theorem memberAt_unordered (m : MemberId) : t.unordered.memberAt m = (t.memberAt m).unordered :=
  getD_map MemberEntry.unordered_default t.members m

theorem aliasAt_unordered (a : AliasId) : t.unordered.aliasAt a = (t.aliasAt a).unordered :=
  getD_map AliasEntry.unordered_default t.aliases a

theorem classTyWithin_unordered (p : Ident) (n : Nat) (c : ClassId) :
    t.unordered.classTyWithin p n c = t.classTyWithin p n c := by
  induction n generalizing p c with
  | zero =>
    unfold classTyWithin
    rw [t.classAt_unordered]
    rfl
  | succ n ih =>
    unfold classTyWithin
    rw [t.classAt_unordered]
    generalize t.classAt c = e
    obtain ⟨decl, package, container, nested, members⟩ := e
    cases container with
    | none => rfl
    | some outer =>
      dsimp only [ClassEntry.unordered]
      rw [ih]
      rfl

/-! No check looks at annotations. -/

theorem checkContainer_unordered (package : PackageId) (container : Option ClassId)
    (name : String) :
    t.unordered.checkContainer package container name =
      t.checkContainer package container name := by
  cases container with
  | none => rfl
  | some outer =>
    rw [checkContainer, checkContainer]
    dsimp only [unordered]
    rw [Array.getElem?_map]
    cases t.classes[outer]? <;> rfl

theorem checkClass_unordered (package : PackageId) (container : Option ClassId) (name : String) :
    t.unordered.checkClass package container name = t.checkClass package container name := by
  rw [checkClass, checkClass, t.checkContainer_unordered]
  dsimp only [unordered]
  rw [Array.getElem?_map]
  cases t.packages[package]? <;> rfl

theorem declaredType_unordered (c : ClassId) (decl : MemberDecl) :
    t.unordered.declaredType c decl.unordered = t.declaredType c decl := by
  have hclassTy : ∀ p, t.unordered.classTy p c = t.classTy p c :=
    fun p => t.classTyWithin_unordered p c c
  have hsize : t.unordered.members.size = t.members.size := Array.size_map
  rw [declaredType, declaredType, hclassTy, hsize, t.classAt_unordered]
  rfl

theorem declaredName_unordered (c : ClassId) (decl : MemberDecl) :
    t.unordered.declaredName c decl.unordered = t.declaredName c decl := by
  rw [declaredName, declaredName, t.classAt_unordered]
  rfl

/-! What is put into tables goes where it would go. -/

theorem putPackage_unordered (decl : PackageDecl) :
    t.unordered.putPackage decl.unordered = (t.putPackage decl).unordered := by
  simp only [putPackage, unordered, Array.map_push, Array.size_map]
  rfl

theorem putClass_unordered (package : PackageId) (container : Option ClassId) (decl : ClassDecl) :
    t.unordered.putClass package container decl.unordered =
      (t.putClass package container decl).unordered := by
  cases container with
  | none =>
    simp only [putClass, linkClass, unordered, Array.map_push, Array.size_map]
    rw [map_modify]
    · rfl
    · exact fun _ => rfl
  | some outer =>
    simp only [putClass, linkClass, unordered, Array.map_push, Array.size_map]
    rw [map_modify]
    · rfl
    · exact fun _ => rfl

theorem putMember_unordered (c : ClassId) (decl : MemberDecl) (ty : Ty) :
    t.unordered.putMember c decl.unordered ty = (t.putMember c decl ty).unordered := by
  rw [putMember, putMember, t.declaredName_unordered]
  simp only [unordered, Array.map_push, Array.size_map]
  rw [map_modify]
  · rfl
  · exact fun _ => rfl

theorem putAlias_unordered (package : PackageId) (decl : AliasDecl) :
    t.unordered.putAlias package decl.unordered = (t.putAlias package decl).unordered := by
  simp only [putAlias, unordered, Array.map_push, Array.size_map]
  rw [map_modify]
  · rfl
  · exact fun _ => rfl

theorem changeMember_unordered (m : MemberId) {f : MemberEntry → MemberEntry}
    (hf : ∀ e, f e.unordered = (f e).unordered) :
    t.unordered.changeMember m f = (t.changeMember m f).unordered := by
  simp only [changeMember, unordered]
  rw [map_modify _ _ hf]

/-! Every call gets the same answer, and it leaves the same tables. -/

theorem addPackage_unordered (decl : PackageDecl) :
    t.unordered.addPackage decl.unordered = (t.addPackage decl).map id unordered := by
  have hsize : t.unordered.packages.size = t.packages.size := Array.size_map
  have hindex : t.unordered.packageIndex[decl.unordered.name]? = t.packageIndex[decl.name]? := rfl
  rw [addPackage, addPackage, hindex, t.putPackage_unordered, hsize]
  cases t.packageIndex[decl.name]? <;> rfl

theorem addClass_unordered (package : PackageId) (container : Option ClassId) (decl : ClassDecl) :
    t.unordered.addClass package container decl.unordered =
      (t.addClass package container decl).map (Prod.map id unordered) := by
  have hsize : t.unordered.classes.size = t.classes.size := Array.size_map
  have hname : decl.unordered.name = decl.name := rfl
  rw [addClass, addClass, t.checkClass_unordered, t.putClass_unordered, hname, hsize]
  cases t.checkClass package container decl.name <;> rfl

theorem addMember_unordered (c : ClassId) (decl : MemberDecl) :
    t.unordered.addMember c decl.unordered =
      (t.addMember c decl).map (Prod.map id unordered) := by
  have hclasses : t.unordered.classes.size = t.classes.size := Array.size_map
  have hmembers : t.unordered.members.size = t.members.size := Array.size_map
  rw [addMember, addMember, t.declaredType_unordered, hclasses, hmembers]
  simp only [t.putMember_unordered]
  split_ifs
  · rfl
  · cases t.declaredType c decl <;> rfl

theorem addAlias_unordered (package : PackageId) (decl : AliasDecl) :
    t.unordered.addAlias package decl.unordered =
      (t.addAlias package decl).map (Prod.map id unordered) := by
  have hpackages : t.unordered.packages.size = t.packages.size := Array.size_map
  have haliases : t.unordered.aliases.size = t.aliases.size := Array.size_map
  have hname : decl.unordered.name = decl.name := rfl
  have hindex : t.unordered.aliasIndex = t.aliasIndex := rfl
  rw [addAlias, addAlias, t.putAlias_unordered, hpackages, haliases, hname, hindex]
  split_ifs <;> rfl

theorem setType_unordered (target : TypeSlot) (ty : Ty) :
    t.unordered.setType target ty = (t.setType target ty).map unordered := by
  cases target with
  | member m =>
    have hsize : t.unordered.members.size = t.members.size := Array.size_map
    have hty : ∀ e : MemberEntry, { e.unordered with ty } = MemberEntry.unordered { e with ty } :=
      fun _ => rfl
    rw [setType, setType, hsize, t.changeMember_unordered m hty]
    split_ifs <;> rfl
  | parameter m index =>
    have hget : t.unordered.members[m]? = t.members[m]?.map MemberEntry.unordered :=
      Array.getElem?_map
    have hmodify : ∀ e : MemberEntry,
        { e.unordered with
          parameters := e.unordered.parameters.modify index fun p => { p with ty } } =
        MemberEntry.unordered
          { e with parameters := e.parameters.modify index fun p => { p with ty } } := fun e =>
      congrArg (fun ps => { e.unordered with parameters := ps })
        (ParameterDecl.map_modify_unordered e.parameters index ty)
    rw [setType, setType, hget, t.changeMember_unordered m hmodify]
    cases t.members[m]? with
    | none => rfl
    | some e =>
      have hlength : e.unordered.parameters.length = e.parameters.length := List.length_map _
      simp only [Option.map_some, hlength]
      split_ifs <;> rfl
  | typeAlias a =>
    have hget : t.unordered.aliases[a]? = t.aliases[a]?.map AliasEntry.unordered :=
      Array.getElem?_map
    rw [setType, setType, hget]
    cases t.aliases[a]? <;> rfl

theorem step_unordered (c : Call) :
    t.unordered.step c.unordered = (t.step c).map (Prod.map id unordered) := by
  cases c with
  | addPackage decl =>
    rw [Call.unordered, step, step, t.addPackage_unordered]
    rfl
  | addClass package container decl =>
    rw [Call.unordered, step, step, t.addClass_unordered]
    cases t.addClass package container decl <;> rfl
  | addMember c decl =>
    rw [Call.unordered, step, step, t.addMember_unordered]
    cases t.addMember c decl <;> rfl
  | addAlias package decl =>
    rw [Call.unordered, step, step, t.addAlias_unordered]
    cases t.addAlias package decl <;> rfl
  | setType target ty =>
    rw [Call.unordered, step, step, t.setType_unordered]
    cases t.setType target ty <;> rfl

theorem call_unordered (c : Call) :
    t.unordered.call c.unordered = (t.call c).map id unordered := by
  rw [call, call, t.step_unordered]
  cases t.step c <;> rfl

theorem run_unordered (calls : List Call) :
    t.unordered.run (calls.map Call.unordered) = (t.run calls).unordered := by
  induction calls generalizing t with
  | nil => rfl
  | cons c cs ih =>
    rw [List.map_cons, run, t.call_unordered, run]
    exact ih (t.call c).2

/-- Calls that are the same but for order and repetition of annotations leave tables that are. -/
theorem unordered_run_eq {calls calls' : List Call}
    (h : calls.map Call.unordered = calls'.map Call.unordered) :
    (run {} calls).unordered = (run {} calls').unordered := by
  rw [← run_unordered, ← run_unordered, h]

end Tables

end ApiSurface
