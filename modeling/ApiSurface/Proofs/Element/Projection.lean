import ApiSurface.Proofs.Codebase.Containment
import ApiSurface.Proofs.Element.Status

/-!
Members that are seen in another class.

A duplicate keeps the declaration of the member, and with it the key, and takes its place in the
class that it is seen in: its status is that of a member with the same declaration in that class.
-/

namespace ApiSurface

/-- What is declared where the member is declared once more. -/
def MemberEntry.decl (e : MemberEntry) : MemberDecl where
  kind := e.kind
  name := e.name
  modifiers := e.modifiers
  documentation := e.documentation
  typeParameters := e.typeParameters
  ty := some e.ty
  parameters := e.parameters

namespace Tables

variable (t : Tables) (c : ClassId) (decl : MemberDecl) (ty : Ty)

theorem bare_classAt_putMember (d : ClassId) :
    ((t.putMember c decl ty).classAt d).bare = (t.classAt d).bare := by
  rw [bare_classAt, bare_classAt, bareClasses_putMember]

theorem memberAt_putMember :
    (t.putMember c decl ty).memberAt t.members.size =
      { kind := decl.kind
        name := t.declaredName c decl
        modifiers := decl.modifiers
        documentation := decl.documentation
        typeParameters := decl.typeParameters
        ty := ty
        parameters := decl.parameters
        declaredIn := c } := by
  simp [memberAt, putMember]

end Tables

/-- Two codebases agree in their packages and classes, members apart, and in what they were made
with. -/
structure Codebase.Agrees (cb cb' : Codebase) : Prop where
  settings : cb.settings = cb'.settings
  packages : cb.tables.packages = cb'.tables.packages
  classes : ∀ c, (cb.tables.classAt c).bare = (cb'.tables.classAt c).bare
  classIndex : cb.tables.classIndex = cb'.tables.classIndex

namespace Codebase.Agrees

variable {cb cb' : Codebase} (h : cb.Agrees cb')
include h

theorem classDecl (c : ClassId) : (cb.tables.classAt c).decl = (cb'.tables.classAt c).decl :=
  (ClassEntry.bare_eq_iff.mp (h.classes c)).1

theorem enclosing (c : ClassId) : cb.tables.enclosing c = cb'.tables.enclosing c :=
  Tables.enclosing_congr (fun d => (ClassEntry.bare_eq_iff.mp (h.classes d)).2.2) c

theorem classify : cb.classify = cb'.classify := by
  have hmeta : cb.metaAnnotations = cb'.metaAnnotations := by
    funext name
    rw [metaAnnotations, metaAnnotations, findClass?, findClass?, h.classIndex]
    cases cb'.tables.classIndex[name]? with
    | none => rfl
    | some c => exact congrArg (·.modifiers.annotations) (h.classDecl c)
  funext a
  rw [Codebase.classify, Codebase.classify, h.settings, hmeta]

theorem origin (c : ClassId) : ClassRef.origin ⟨cb, c⟩ = ClassRef.origin ⟨cb', c⟩ := by
  simp only [ClassRef.origin, defaultOrigin]
  rw [h.enclosing, h.classDecl, h.settings]

theorem resembles_package (p : PackageId) :
    Element.Resembles (.package ⟨cb, p⟩) (.package ⟨cb', p⟩) := by
  have hentry : cb.tables.packageAt p = cb'.tables.packageAt p := by
    rw [Tables.packageAt, Tables.packageAt, h.packages]
  exact
    { modifiers := congrArg (·.decl.modifiers) hentry
      documentation := congrArg (·.decl.documentation) hentry
      classify := h.classify }

theorem resembles_class (c : ClassId) : Element.Resembles (.cls ⟨cb, c⟩) (.cls ⟨cb', c⟩) where
  modifiers := congrArg (·.modifiers) (h.classDecl c)
  documentation := congrArg (·.documentation) (h.classDecl c)
  classify := h.classify

theorem resembles_aboveClass (c : ClassId) :
    List.Forall₂ Element.Resembles (Element.aboveClass ⟨cb, c⟩) (Element.aboveClass ⟨cb', c⟩) :=
  Element.forall₂_aboveClass h.resembles_class h.resembles_package (h.enclosing c)
    (ClassEntry.bare_eq_iff.mp (h.classes c)).2.1

end Codebase.Agrees

namespace Codebase

theorem agrees_putMember (number number' : Nat) (settings : Settings) (t : Tables) (c : ClassId)
    (decl : MemberDecl) (ty : Ty) :
    Agrees ⟨number, settings, t⟩ ⟨number', settings, t.putMember c decl ty⟩ where
  settings := rfl
  packages := rfl
  classes d := (t.bare_classAt_putMember c decl ty d).symm
  classIndex := rfl

theorem member?_putMember (number : Nat) (settings : Settings) (t : Tables) (c : ClassId)
    (decl : MemberDecl) (ty : Ty) :
    member? ⟨number, settings, t.putMember c decl ty⟩ t.members.size =
      some
        { home := ⟨number, settings, t.putMember c decl ty⟩
          id := t.members.size
          container := ⟨⟨number, settings, t.putMember c decl ty⟩, c⟩ } := by
  have hlt : t.members.size < (t.putMember c decl ty).members.size := by
    simp [Tables.putMember]
  rw [member?, if_pos hlt, t.memberAt_putMember]

theorem build_addMember (number : Nat) (settings : Settings) (calls : List Call) {c : ClassId}
    (e : MemberEntry) (hc : c < (Tables.run {} calls).classes.size) :
    build number settings (calls ++ [.addMember c e.decl]) =
      ⟨number, settings, (Tables.run {} calls).putMember c e.decl e.ty⟩ := by
  have heffect : (Tables.run {} calls).Effect (.addMember c e.decl)
      (.id (Tables.run {} calls).members.size) ((Tables.run {} calls).putMember c e.decl e.ty) :=
    .newMember hc rfl
  have hrun : Tables.run {} (calls ++ [.addMember c e.decl]) =
      (Tables.run {} calls).putMember c e.decl e.ty := by
    rw [Tables.run_append]
    exact congrArg Prod.snd (Tables.call_of_effect heffect)
  rw [build, hrun]

end Codebase

namespace MemberRef

variable {m n : MemberRef}

/-- Views with the same declaration at the same place have the same status, and so have their
parameters. -/
theorem sameStatus_of_agrees {cb cb' : Codebase} (h : cb.Agrees cb') {c : ClassId}
    (hm : m.container = ⟨cb, c⟩) (hn : n.container = ⟨cb', c⟩)
    (hmodifiers : m.entry.modifiers = n.entry.modifiers)
    (hdocumentation : m.entry.documentation = n.entry.documentation)
    (hparameters : m.entry.parameters = n.entry.parameters) :
    Element.SameStatus (.member m) (.member n) ∧
      List.Forall₂ (fun p q => Element.SameStatus (.parameter p) (.parameter q)) m.parameters
        n.parameters := by
  have habove : List.Forall₂ Element.Resembles (Element.ancestors (.member m))
      (Element.ancestors (.member n)) := by
    simp only [Element.ancestors, hm, hn]
    exact .cons (h.resembles_class c) (h.resembles_aboveClass c)
  have horigin : m.container.origin = n.container.origin := by
    rw [hm, hn]
    exact h.origin c
  have hclassify : m.container.codebase.classify = n.container.codebase.classify := by
    rw [hm, hn]
    exact h.classify
  have hmember : Element.Resembles (.member m) (.member n) := ⟨hmodifiers, hdocumentation, hclassify⟩
  refine ⟨hmember.sameStatus habove horigin, ?_⟩
  rw [parameters, parameters, hparameters, List.forall₂_map_left_iff, List.forall₂_map_right_iff]
  refine List.forall₂_same.mpr fun i _ => ?_
  have hdecl : ParameterRef.decl ⟨m, i⟩ = ParameterRef.decl ⟨n, i⟩ := by
    rw [ParameterRef.decl, ParameterRef.decl, hparameters]
  have hparameter : Element.Resembles (.parameter ⟨m, i⟩) (.parameter ⟨n, i⟩) :=
    ⟨congrArg (·.modifiers) hdecl, rfl, hclassify⟩
  exact hparameter.sameStatus (.cons hmember habove) horigin

/-- A chain of duplicates leaves nothing but its last two classes. -/
theorem foldl_duplicate (m : MemberRef) (chain : List ClassRef) (target : ClassRef) :
    (chain ++ [target]).foldl duplicate m =
      { m with
        container := target
        inheritedFrom := some (chain.getLast?.getD m.container) } := by
  induction chain generalizing m with
  | nil => rfl
  | cons c chain ih =>
    rw [List.cons_append, List.foldl_cons, ih, List.getLast?_cons]
    rfl

/-- A member that is duplicated from class to class ends up in the last of them, knows the one
before, and keeps its declaration. It and its parameters have the status that they would have if the
last class declared the member itself. -/
theorem duplicate_projects (m : MemberRef) (chain : List ClassRef) (number number' : Nat)
    (settings : Settings) (calls : List Call) (id : ClassId) (target : ClassRef)
    (htarget : (Codebase.build number settings calls).class? id = some target) :
    let copy := (chain ++ [target]).foldl duplicate m
    copy.container = target ∧ copy.inheritedFrom = some (chain.getLast?.getD m.container) ∧
      copy.key = m.key ∧ copy.entry = m.entry ∧
      copy.parameters.map (·.decl) = m.parameters.map (·.decl) ∧
      ∃ declared,
        (Codebase.build number' settings (calls ++ [.addMember id m.entry.decl])).member?
          target.codebase.tables.members.size = some declared ∧
        declared.container.id = id ∧
        Element.SameStatus (.member copy) (.member declared) ∧
        List.Forall₂ (fun p q => Element.SameStatus (.parameter p) (.parameter q)) copy.parameters
          declared.parameters := by
  obtain ⟨hid, rfl⟩ := Codebase.class?_eq_some_iff.mp htarget
  intro copy
  have hcopy : copy = _ := foldl_duplicate m chain _
  have hentry : copy.entry = m.entry := by rw [hcopy]; rfl
  have hdecls : copy.parameters.map (·.decl) = m.parameters.map (·.decl) := by
    simp only [parameters, List.map_map, Function.comp_def, ParameterRef.decl, hentry]
  refine ⟨by rw [hcopy], by rw [hcopy], by rw [hcopy]; rfl, hentry, hdecls, ?_⟩
  rw [Codebase.build_addMember number' settings calls m.entry hid]
  refine ⟨_, Codebase.member?_putMember _ _ _ _ _ _, rfl, ?_⟩
  have hplace : copy.container = ⟨⟨number, settings, Tables.run {} calls⟩, id⟩ := by
    rw [hcopy]
    rfl
  have hadded := (Tables.run {} calls).memberAt_putMember id m.entry.decl m.entry.ty
  have hmodifiers := congrArg MemberEntry.modifiers hadded
  have hdocumentation := congrArg MemberEntry.documentation hadded
  have hparameters := congrArg MemberEntry.parameters hadded
  refine sameStatus_of_agrees (Codebase.agrees_putMember number number' settings _ id _ _) hplace
    rfl ?_ ?_ ?_
  · rw [hentry]
    exact hmodifiers.symm
  · rw [hentry]
    exact hdocumentation.symm
  · rw [hentry]
    exact hparameters.symm

/-- A method of a class that is open to everyone. -/
def baseCalls : List Call :=
  [.addPackage { name := "lib" },
    .addClass 0 none { name := "lib.Base" },
    .addMember 0
      { name := "put"
        ty := some (.primitive {} {} .boolean)
        parameters := [{ ty := .primitive {} {} .int }] }]

/-- A hidden class of a package, nested in another. -/
def hiddenCalls : List Call :=
  [.addPackage { name := "lib" },
    .addClass 0 none
      { name := "lib.Derived"
        modifiers := { visibility := .ownPackage }
        documentation := "Internal. @hide" },
    .addClass 0 (some 0) { name := "lib.Derived.Inner" }]

/-- Seen in a nested class of another codebase, the method is hidden, for the package only and from
the class path, as if it were declared there. -/
theorem duplicate_projects_hidden :
    let base := Codebase.build 0 {} baseCalls
    let previous := Codebase.build 1 { fromClasspath := true } hiddenCalls
    let m : MemberRef := ⟨base, 0, ⟨base, 0⟩, none⟩
    ∃ declared, (Codebase.build 2 { fromClasspath := true }
        (hiddenCalls ++ [.addMember 1 m.entry.decl])).member? 0 = some declared ∧
      previous.class? 1 = some ⟨previous, 1⟩ ∧
      (Element.member declared).effectiveVisibility = .ownPackage ∧
      (Element.member declared).isFromClasspath = true ∧
      ((Element.member declared).isHidden .empty).1 = true := by
  intro base previous m
  have hclass : previous.class? 1 = some ⟨previous, 1⟩ := if_pos (by decide +kernel)
  have hprojects := duplicate_projects m [⟨previous, 0⟩] 1 2 { fromClasspath := true } hiddenCalls 1
    ⟨previous, 1⟩ hclass
  obtain ⟨_, _, _, _, _, declared, hdeclared, _, hstatus, _⟩ := hprojects
  refine ⟨declared, hdeclared, hclass, ?_, ?_, ?_⟩
  · rw [← hstatus.visibility]
    decide +kernel
  · rw [← hstatus.fromClasspath]
    decide +kernel
  · have hsame := hstatus.hidden [] []
    refine hsame.symm.trans ?_
    decide +kernel

end MemberRef

end ApiSurface
