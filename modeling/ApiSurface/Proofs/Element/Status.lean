import ApiSurface.Element.Status
import ApiSurface.Proofs.Annotations.VerdictCache
import Mathlib.Data.List.Forall2

/-!
The status of an element without a cache.

Every question about the status of an element has one answer, whatever was looked up in the cache of
its codebase before. The answers are given here as plain functions. They depend on the element and
its containers only through modifiers and documentation, and on the codebase only through what it
makes of annotations: elements that agree in that have the same status.
-/

namespace ApiSurface

namespace Codebase

variable (cb : Codebase)

/-- The verdict on an annotation without a cache. -/
def classify (a : AnnotationUse) : Verdict := cb.settings.classifier.classify cb.metaAnnotations a

/-- The cache of a codebase in which these annotations were looked up one after the other. -/
def cacheAfter (looked : List AnnotationUse) : VerdictCache :=
  (looked.mapM cb.verdict VerdictCache.empty).2

/-- The computation has this answer in every cache with verdicts of the codebase. -/
def Yields {α : Type} (x : StateM VerdictCache α) (value : α) : Prop :=
  VerdictCache.Yields cb.settings.classifier cb.metaAnnotations x value

theorem yields_verdict (a : AnnotationUse) : cb.Yields (cb.verdict a) (cb.classify a) :=
  VerdictCache.yields_lookup a

theorem Yields.cacheAfter {cb : Codebase} {α : Type} {x : StateM VerdictCache α} {value : α}
    (h : cb.Yields x value) (looked : List AnnotationUse) : (x (cb.cacheAfter looked)).1 = value := by
  have hall := VerdictCache.Yields.mapM cb.yields_verdict looked
  exact (h _ (hall _ VerdictCache.sound_empty).2).1

end Codebase

namespace Element

/-- The verdicts on the annotations of an element. -/
def ownVerdicts (x : Element) : List Verdict := x.modifiers.annotations.map x.codebase.classify

def shown (x : Element) : Showability := .combineAll (x.ownVerdicts.map (·.showability))

def hidesItself (x : Element) : Bool :=
  Text.occursIn hideTag.toList x.documentation.toList || x.ownVerdicts.any (·.hides)

/-- Whether containers, given outwards, hide their contents. -/
def contentsHidden : List Element → Bool
  | [] => false
  | p :: ps => !p.shown.showsContents && (p.hidesItself || contentsHidden ps)

def hidden (x : Element) : Bool :=
  !x.shown.shows && (x.hidesItself || contentsHidden x.ancestors)

variable (x : Element)

theorem yields_verdicts : x.codebase.Yields x.verdicts x.ownVerdicts :=
  VerdictCache.Yields.mapM x.codebase.yields_verdict _

theorem yields_showability : x.codebase.Yields x.showability x.shown :=
  x.yields_verdicts.bind (.pure _)

theorem yields_suppressesCompatibility :
    x.codebase.Yields x.suppressesCompatibility (x.ownVerdicts.any (·.suppresses)) :=
  x.yields_verdicts.bind (.pure _)

theorem yields_isHiddenItself : x.codebase.Yields x.isHiddenItself x.hidesItself := by
  rw [isHiddenItself, hidesItself]
  cases Text.occursIn hideTag.toList x.documentation.toList with
  | true => exact .pure true
  | false => exact x.yields_verdicts.bind (.pure _)

theorem yields_hidesContents {cb : Codebase} {ps : List Element}
    (hps : ∀ p ∈ ps, p.codebase = cb) : cb.Yields (hidesContents ps) (contentsHidden ps) := by
  induction ps with
  | nil => exact .pure false
  | cons p ps ih =>
    have hrest := ih fun q hq => hps q (List.mem_cons_of_mem p hq)
    obtain rfl := hps p List.mem_cons_self
    rw [hidesContents, contentsHidden]
    refine p.yields_showability.bind ?_
    cases p.shown.showsContents with
    | true => exact .pure false
    | false =>
      refine p.yields_isHiddenItself.bind ?_
      cases p.hidesItself with
      | true => exact .pure true
      | false => exact hrest

/-- The containers of an element are in its codebase. -/
theorem codebase_of_mem_ancestors {p : Element} (hp : p ∈ x.ancestors) :
    p.codebase = x.codebase := by
  have habove : ∀ (c : ClassRef), ∀ p ∈ aboveClass c, p.codebase = c.codebase := by
    intro c p hp
    simp only [aboveClass, List.mem_append, List.mem_map, List.mem_singleton] at hp
    obtain ⟨outer, _, rfl⟩ | rfl := hp <;> rfl
  cases x with
  | package q => cases hp
  | cls c => exact habove c p hp
  | typeAlias a =>
    obtain rfl := List.mem_singleton.mp hp
    rfl
  | member m =>
    rcases List.mem_cons.mp hp with rfl | hp
    · rfl
    · exact habove _ p hp
  | parameter q =>
    rcases List.mem_cons.mp hp with rfl | hp
    · rfl
    · rcases List.mem_cons.mp hp with rfl | hp
      · rfl
      · exact habove _ p hp

theorem yields_isHidden : x.codebase.Yields x.isHidden x.hidden := by
  rw [isHidden, hidden]
  refine x.yields_showability.bind ?_
  cases x.shown.shows with
  | true => exact .pure false
  | false =>
    refine x.yields_isHiddenItself.bind ?_
    cases x.hidesItself with
    | true => exact .pure true
    | false => exact yields_hidesContents fun p => x.codebase_of_mem_ancestors

/-- Two elements have the same status, whatever was looked up in the caches of their codebases. -/
structure SameStatus (x y : Element) : Prop where
  hidden : ∀ looked looked', (x.isHidden (x.codebase.cacheAfter looked)).1 =
    (y.isHidden (y.codebase.cacheAfter looked')).1
  hiddenItself : ∀ looked looked', (x.isHiddenItself (x.codebase.cacheAfter looked)).1 =
    (y.isHiddenItself (y.codebase.cacheAfter looked')).1
  showability : ∀ looked looked', (x.showability (x.codebase.cacheAfter looked)).1 =
    (y.showability (y.codebase.cacheAfter looked')).1
  suppresses : ∀ looked looked', (x.suppressesCompatibility (x.codebase.cacheAfter looked)).1 =
    (y.suppressesCompatibility (y.codebase.cacheAfter looked')).1
  visibility : x.effectiveVisibility = y.effectiveVisibility
  origin : x.origin = y.origin
  fromClasspath : x.isFromClasspath = y.isFromClasspath

/-- Two elements agree in what is said about them, containers apart. -/
structure Resembles (x y : Element) : Prop where
  modifiers : x.modifiers = y.modifiers
  documentation : x.documentation = y.documentation
  classify : x.codebase.classify = y.codebase.classify

variable {x} {y : Element}

theorem Resembles.ownVerdicts (h : x.Resembles y) : x.ownVerdicts = y.ownVerdicts := by
  rw [Element.ownVerdicts, Element.ownVerdicts, h.modifiers, h.classify]

theorem Resembles.shown (h : x.Resembles y) : x.shown = y.shown := by
  rw [Element.shown, Element.shown, h.ownVerdicts]

theorem Resembles.hidesItself (h : x.Resembles y) : x.hidesItself = y.hidesItself := by
  rw [Element.hidesItself, Element.hidesItself, h.ownVerdicts, h.documentation]

/-- Of a container it matters how it is shown and whether it is hidden itself. -/
theorem contentsHidden_congr {ps qs : List Element}
    (h : List.Forall₂ (fun p q => p.shown = q.shown ∧ p.hidesItself = q.hidesItself) ps qs) :
    contentsHidden ps = contentsHidden qs := by
  induction h with
  | nil => rfl
  | cons hpq _ ih => rw [contentsHidden, contentsHidden, hpq.1, hpq.2, ih]

/-- What holds of the classes and packages of two codebases, number by number, holds of the
containers of a class that has the same containers in both. -/
theorem forall₂_aboveClass {R : Element → Element → Prop} {cb cb' : Codebase} {c : ClassId}
    (hclass : ∀ d, R (.cls ⟨cb, d⟩) (.cls ⟨cb', d⟩))
    (hpackage : ∀ p, R (.package ⟨cb, p⟩) (.package ⟨cb', p⟩))
    (henclosing : cb.tables.enclosing c = cb'.tables.enclosing c)
    (hsame : (cb.tables.classAt c).package = (cb'.tables.classAt c).package) :
    List.Forall₂ R (aboveClass ⟨cb, c⟩) (aboveClass ⟨cb', c⟩) := by
  apply List.rel_append
  · simp only [Tables.containers]
    rw [henclosing, List.forall₂_map_left_iff, List.forall₂_map_right_iff]
    exact List.forall₂_same.mpr fun outer _ => hclass outer
  · refine .cons ?_ .nil
    simp only [ClassRef.package, ClassRef.entry]
    rw [hsame]
    exact hpackage _

theorem effectiveVisibility_congr (h : x.Resembles y)
    (habove : List.Forall₂ Resembles x.ancestors y.ancestors) :
    x.effectiveVisibility = y.effectiveVisibility := by
  rw [effectiveVisibility, effectiveVisibility, h.modifiers]
  generalize y.modifiers.visibility = v
  generalize x.ancestors = ps at habove ⊢
  generalize y.ancestors = qs at habove ⊢
  induction habove generalizing v with
  | nil => rfl
  | cons hpq _ ih => rw [List.foldl_cons, List.foldl_cons, hpq.modifiers, ih]

/-- Elements that agree, and whose containers agree, have the same status. -/
theorem Resembles.sameStatus (h : x.Resembles y)
    (habove : List.Forall₂ Resembles x.ancestors y.ancestors) (horigin : x.origin = y.origin) :
    x.SameStatus y where
  hidden looked looked' := by
    have hcontents : contentsHidden x.ancestors = contentsHidden y.ancestors :=
      contentsHidden_congr (habove.imp fun _ _ hpq => ⟨hpq.shown, hpq.hidesItself⟩)
    rw [x.yields_isHidden.cacheAfter, y.yields_isHidden.cacheAfter, Element.hidden, Element.hidden,
      h.shown, h.hidesItself, hcontents]
  hiddenItself looked looked' := by
    rw [x.yields_isHiddenItself.cacheAfter, y.yields_isHiddenItself.cacheAfter, h.hidesItself]
  showability looked looked' := by
    rw [x.yields_showability.cacheAfter, y.yields_showability.cacheAfter, h.shown]
  suppresses looked looked' := by
    rw [x.yields_suppressesCompatibility.cacheAfter, y.yields_suppressesCompatibility.cacheAfter,
      h.ownVerdicts]
  visibility := effectiveVisibility_congr h habove
  origin := horigin
  fromClasspath := by rw [isFromClasspath, isFromClasspath, horigin]

end Element

end ApiSurface
