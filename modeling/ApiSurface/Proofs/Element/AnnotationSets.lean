import ApiSurface.Proofs.Codebase.AnnotationOrder
import ApiSurface.Proofs.Element.Hiding
import Mathlib.Data.List.GetD

/-!
The status of elements depends on sets of annotations.

Verdicts are combined one after the other, and a verdict that does not show can still take the place
of what was combined before it. Filters give no such verdict but the one without effect. Then the
flags of the combined verdict are determined by the set of verdicts, and so is what annotations do
to the elements they stand on, also where they stand on the class of another annotation.
-/

namespace ApiSurface

namespace Showability

/-- The flags of `s` are those of the verdicts that show, of which there is one. -/
structure Merges (verdicts : List Showability) (s : Showability) : Prop where
  shows : s.shows = true
  recursive : s.recursive = true ↔ ∃ v ∈ verdicts, v.shows = true ∧ v.recursive = true
  forStubsOnly : s.forStubsOnly = true ↔ ∀ v ∈ verdicts, v.shows = true → v.forStubsOnly = true

variable {s s' v acc : Showability} {verdicts verdicts' : List Showability}

theorem combine_of_not_shows (h : s.shows = false) (v : Showability) : s.combine v = v := by
  rw [combine, h]

theorem combine_of_shows (hs : s.shows = true) (hv : v.shows = true) :
    s.combine v = ⟨true, s.recursive || v.recursive, s.forStubsOnly && v.forStubsOnly⟩ := by
  rw [combine, hs, hv]

theorem combine_skip (hs : s.shows = true) (hv : v.shows = false) : s.combine v = s := by
  rw [combine, hs, hv]

namespace Merges

theorem singleton (h : s.shows = true) : Merges [s] s := by
  constructor <;> simp [h]

/-- The order of verdicts is no matter, and neither is how often each is there. -/
theorem congr (h : Merges verdicts s) (hmem : ∀ v, v ∈ verdicts ↔ v ∈ verdicts') :
    Merges verdicts' s := by
  constructor
  · exact h.shows
  · simp only [h.recursive, hmem]
  · simp only [h.forStubsOnly, hmem]

theorem cons_of_not_shows (h : Merges verdicts s) (hv : v.shows = false) :
    Merges (v :: verdicts) s := by
  constructor
  · exact h.shows
  · simp [h.recursive, hv]
  · simp [h.forStubsOnly, hv]

/-- Two verdicts that show can be combined before the others are. -/
theorem cons_cons (hs : s'.shows = true) (hv : v.shows = true)
    (h : Merges (s'.combine v :: verdicts) s) : Merges (s' :: v :: verdicts) s := by
  rw [combine_of_shows hs hv] at h
  constructor
  · exact h.shows
  · simp [h.recursive, hs, hv, or_assoc]
  · simp [h.forStubsOnly, hs, hv, and_assoc]

theorem unique (h : Merges verdicts s) (h' : Merges verdicts s') : s = s' := by
  have hshows : s.shows = s'.shows := h.shows.trans h'.shows.symm
  have hrecursive : s.recursive = s'.recursive :=
    Bool.eq_iff_iff.mpr (h.recursive.trans h'.recursive.symm)
  have hstubs : s.forStubsOnly = s'.forStubsOnly :=
    Bool.eq_iff_iff.mpr (h.forStubsOnly.trans h'.forStubsOnly.symm)
  cases s
  cases s'
  simp_all only

end Merges

theorem merges_foldl_of_shows (hacc : acc.shows = true) :
    Merges (acc :: verdicts) (verdicts.foldl combine acc) := by
  induction verdicts generalizing acc with
  | nil => exact .singleton hacc
  | cons v verdicts ih =>
    rw [List.foldl_cons]
    cases hv : v.shows with
    | true => exact .cons_cons hacc hv (ih (by rw [combine_of_shows hacc hv]))
    | false =>
      rw [combine_skip hacc hv]
      refine ((ih hacc).cons_of_not_shows hv).congr fun w => ?_
      simp only [List.mem_cons, or_left_comm]

/-- The combined verdict has the flags of those that show, as soon as one shows. -/
theorem merges_foldl (hacc : acc.shows = false) (h : ∃ v ∈ verdicts, v.shows = true) :
    Merges verdicts (verdicts.foldl combine acc) := by
  induction verdicts generalizing acc with
  | nil =>
    obtain ⟨v, hv, _⟩ := h
    cases hv
  | cons v verdicts ih =>
    rw [List.foldl_cons, combine_of_not_shows hacc]
    cases hv : v.shows with
    | true => exact merges_foldl_of_shows hv
    | false =>
      obtain ⟨w, hw, hshows⟩ := h
      have hw' : w ∈ verdicts := by
        rcases List.mem_cons.mp hw with rfl | hw
        · rw [hv] at hshows
          cases hshows
        · exact hw
      exact (ih hv ⟨w, hw', hshows⟩).cons_of_not_shows hv

theorem merges_combineAll (h : ∃ v ∈ verdicts, v.shows = true) :
    Merges verdicts (combineAll verdicts) :=
  merges_foldl rfl h

/-- Verdicts without effect have none when they are combined. -/
theorem combineAll_eq_noEffect (h : ∀ v ∈ verdicts, v = noEffect) :
    combineAll verdicts = noEffect := by
  rw [List.eq_replicate_of_mem h]
  generalize verdicts.length = n
  induction n with
  | zero => rfl
  | succ n ih => exact ih

/-- A verdict that shows nothing says nothing else. -/
def Settled (v : Showability) : Prop := v.shows = true ∨ v = noEffect

theorem combineAll_of_settled (h : ∀ v ∈ verdicts, v.Settled)
    (hnone : ¬ ∃ v ∈ verdicts, v.shows = true) : combineAll verdicts = noEffect :=
  combineAll_eq_noEffect fun v hv => (h v hv).resolve_left fun hshows => hnone ⟨v, hv, hshows⟩

/-- The combined verdict of settled ones shows if one of them does, and is settled too. -/
theorem flags_combineAll (h : ∀ v ∈ verdicts, v.Settled) :
    ((combineAll verdicts).shows = true ↔ ∃ v ∈ verdicts, v.shows = true) ∧
      ((combineAll verdicts).shows = true → Merges verdicts (combineAll verdicts)) ∧
      ((combineAll verdicts).shows = false → combineAll verdicts = noEffect) := by
  by_cases hshow : ∃ v ∈ verdicts, v.shows = true
  · have hmerges := merges_combineAll hshow
    refine ⟨iff_of_true hmerges.shows hshow, fun _ => hmerges, fun hnot => ?_⟩
    rw [hmerges.shows] at hnot
    cases hnot
  · rw [combineAll_of_settled h hshow]
    exact ⟨iff_of_false Bool.false_ne_true hshow, fun hshows => absurd hshows Bool.false_ne_true,
      fun _ => rfl⟩

/-- Combining settled verdicts is a matter of their set. -/
theorem combineAll_congr (h : ∀ v ∈ verdicts, v.Settled)
    (hmem : ∀ v, v ∈ verdicts ↔ v ∈ verdicts') : combineAll verdicts = combineAll verdicts' := by
  by_cases hshow : ∃ v ∈ verdicts, v.shows = true
  · have hshow' : ∃ v ∈ verdicts', v.shows = true := by
      simpa only [hmem] using hshow
    exact ((merges_combineAll hshow).congr hmem).unique (merges_combineAll hshow')
  · have hnone' : ¬ ∃ v ∈ verdicts', v.shows = true := by
      simpa only [hmem] using hshow
    have h' : ∀ v ∈ verdicts', v.Settled := fun v hv => h v ((hmem v).mpr hv)
    rw [combineAll_of_settled h hshow, combineAll_of_settled h' hnone']

end Showability

theorem any_congr_mem {α : Type} {as bs : List α} (h : ∀ a, a ∈ as ↔ a ∈ bs) (f : α → Bool) :
    as.any f = bs.any f := by
  rw [Bool.eq_iff_iff, List.any_eq_true, List.any_eq_true]
  simp only [h]

namespace FilterLists

variable (lists : FilterLists Filter)

theorem settled_showability (o : Occurrence) : (lists.showability o).Settled := by
  rw [showability]
  split_ifs
  · exact .inl rfl
  · exact .inl rfl
  · exact .inl rfl
  · exact .inr rfl

/-- Of the annotations of an annotation's class, filters see the set. -/
theorem classify_congr {metaOf metaOf' : String → List AnnotationUse}
    (h : ∀ name a, a ∈ metaOf name ↔ a ∈ metaOf' name) :
    lists.classifier.classify metaOf = lists.classifier.classify metaOf' := by
  funext a
  simp only [Classifier.classify, classifier, showability, hides, suppresses,
    any_congr_mem (h a.name)]

end FilterLists

/-- Codebases built by calls that are the same but for order and repetition of annotations. -/
inductive Codebase.Reordered : Codebase → Codebase → Prop where
  | build (number : Nat) (settings : Settings) {calls calls' : List Call}
      (same : calls.map Call.unordered = calls'.map Call.unordered) :
      Reordered (.build number settings calls) (.build number settings calls')

theorem DeclModifiers.mem_annotations_iff {m m' : DeclModifiers} (h : m.unordered = m'.unordered)
    (a : AnnotationUse) : a ∈ m.annotations ↔ a ∈ m'.annotations :=
  AnnotationUse.unordered_eq_iff.mp (congrArg DeclModifiers.annotations h) a

namespace Codebase.Reordered

variable {cb cb' : Codebase} (h : cb.Reordered cb')

include h

theorem settings : cb.settings = cb'.settings := by
  cases h
  rfl

theorem tables : cb.tables.unordered = cb'.tables.unordered := by
  cases h with
  | build number settings same => exact Tables.unordered_run_eq same

theorem packageAt (p : PackageId) :
    (cb.tables.packageAt p).unordered = (cb'.tables.packageAt p).unordered := by
  rw [← Tables.packageAt_unordered, h.tables, Tables.packageAt_unordered]

theorem classAt (c : ClassId) :
    (cb.tables.classAt c).unordered = (cb'.tables.classAt c).unordered := by
  rw [← Tables.classAt_unordered, h.tables, Tables.classAt_unordered]

theorem memberAt (m : MemberId) :
    (cb.tables.memberAt m).unordered = (cb'.tables.memberAt m).unordered := by
  rw [← Tables.memberAt_unordered, h.tables, Tables.memberAt_unordered]

theorem aliasAt (a : AliasId) :
    (cb.tables.aliasAt a).unordered = (cb'.tables.aliasAt a).unordered := by
  rw [← Tables.aliasAt_unordered, h.tables, Tables.aliasAt_unordered]

theorem metaAnnotations (name : String) (a : AnnotationUse) :
    a ∈ cb.metaAnnotations name ↔ a ∈ cb'.metaAnnotations name := by
  have hindex : cb.tables.classIndex = cb'.tables.classIndex :=
    (congrArg Tables.classIndex h.tables :)
  rw [Codebase.metaAnnotations, Codebase.metaAnnotations, findClass?, findClass?, hindex]
  cases cb'.tables.classIndex[name]? with
  | none => exact Iff.rfl
  | some c => exact DeclModifiers.mem_annotations_iff (congrArg (·.decl.modifiers) (h.classAt c)) a

theorem classify {lists : FilterLists Filter}
    (hfilter : cb.settings.classifier = lists.classifier) : cb.classify = cb'.classify := by
  funext a
  rw [Codebase.classify, Codebase.classify, ← h.settings, hfilter,
    lists.classify_congr h.metaAnnotations]

theorem enclosing (c : ClassId) : cb.tables.enclosing c = cb'.tables.enclosing c :=
  Tables.enclosing_congr (fun d => (congrArg ClassEntry.container (h.classAt d) :)) c

end Codebase.Reordered

namespace Element

/-- The same element in codebases that are the same but for order and repetition of annotations. -/
inductive Reordered : Element → Element → Prop where
  | package {cb cb' : Codebase} (h : cb.Reordered cb') (p : PackageId) :
      Reordered (.package ⟨cb, p⟩) (.package ⟨cb', p⟩)
  | cls {cb cb' : Codebase} (h : cb.Reordered cb') (c : ClassId) :
      Reordered (.cls ⟨cb, c⟩) (.cls ⟨cb', c⟩)
  | typeAlias {cb cb' : Codebase} (h : cb.Reordered cb') (a : AliasId) :
      Reordered (.typeAlias ⟨cb, a⟩) (.typeAlias ⟨cb', a⟩)
  | member {cb cb' home home' : Codebase} (h : cb.Reordered cb') (hhome : home.Reordered home')
      (m : MemberId) (c : ClassId) (origin origin' : Option ClassRef) :
      Reordered (.member ⟨home, m, ⟨cb, c⟩, origin⟩) (.member ⟨home', m, ⟨cb', c⟩, origin'⟩)
  | parameter {cb cb' home home' : Codebase} (h : cb.Reordered cb') (hhome : home.Reordered home')
      (m : MemberId) (c : ClassId) (origin origin' : Option ClassRef) (index : Nat) :
      Reordered (.parameter ⟨⟨home, m, ⟨cb, c⟩, origin⟩, index⟩)
        (.parameter ⟨⟨home', m, ⟨cb', c⟩, origin'⟩, index⟩)

theorem reordered_aboveClass {cb cb' : Codebase} (h : cb.Reordered cb') (c : ClassId) :
    List.Forall₂ Reordered (aboveClass ⟨cb, c⟩) (aboveClass ⟨cb', c⟩) :=
  forall₂_aboveClass (.cls h) (.package h) (h.enclosing c)
    (congrArg ClassEntry.package (h.classAt c) :)

namespace Reordered

variable {x y : Element}

theorem codebase (h : x.Reordered y) : x.codebase.Reordered y.codebase := by
  cases h <;> assumption

theorem ancestors (h : x.Reordered y) : List.Forall₂ Reordered x.ancestors y.ancestors := by
  cases h with
  | package _ _ => exact .nil
  | cls h c => exact reordered_aboveClass h c
  | @typeAlias cb cb' h a =>
    have hpackage : (cb.tables.aliasAt a).package = (cb'.tables.aliasAt a).package :=
      (congrArg AliasEntry.package (h.aliasAt a) :)
    refine .cons ?_ .nil
    simp only [AliasRef.package, AliasRef.entry]
    rw [hpackage]
    exact .package h _
  | member h _ _ c _ _ => exact .cons (.cls h c) (reordered_aboveClass h c)
  | parameter h hhome m c origin origin' _ =>
    exact .cons (.member h hhome m c origin origin')
      (.cons (.cls h c) (reordered_aboveClass h c))

theorem documentation (h : x.Reordered y) : x.documentation = y.documentation := by
  cases h with
  | package h p => exact congrArg (·.decl.documentation) (h.packageAt p)
  | cls h c => exact congrArg (·.decl.documentation) (h.classAt c)
  | typeAlias h a => exact congrArg (·.decl.documentation) (h.aliasAt a)
  | member _ hhome m _ _ _ => exact congrArg (·.documentation) (hhome.memberAt m)
  | parameter _ _ _ _ _ _ _ => rfl

theorem modifiers (h : x.Reordered y) : x.modifiers.unordered = y.modifiers.unordered := by
  cases h with
  | package h p => exact congrArg (·.decl.modifiers) (h.packageAt p)
  | cls h c => exact congrArg (·.decl.modifiers) (h.classAt c)
  | typeAlias h a => exact congrArg (·.decl.modifiers) (h.aliasAt a)
  | member _ hhome m _ _ _ => exact congrArg (·.modifiers) (hhome.memberAt m)
  | @parameter _ _ home home' _ hhome m _ _ _ index =>
    have hparameters : (home.tables.memberAt m).parameters.map ParameterDecl.unordered =
        (home'.tables.memberAt m).parameters.map ParameterDecl.unordered :=
      congrArg MemberEntry.parameters (hhome.memberAt m)
    have hdecl := congrArg (fun ps => (ps.getD index (ParameterDecl.unordered default)).modifiers)
      hparameters
    simp only [List.getD_map] at hdecl
    exact hdecl

variable {lists : FilterLists Filter}

/-- The same verdicts are passed on both elements, in some order. -/
theorem mem_ownVerdicts_iff (h : x.Reordered y)
    (hfilter : x.codebase.settings.classifier = lists.classifier) (v : Verdict) :
    v ∈ x.ownVerdicts ↔ v ∈ y.ownVerdicts := by
  have hmem := DeclModifiers.mem_annotations_iff h.modifiers
  rw [ownVerdicts, ownVerdicts, h.codebase.classify hfilter, List.mem_map, List.mem_map]
  simp only [hmem]

end Reordered

variable {x y : Element} {lists : FilterLists Filter}

theorem settled_of_mem_ownVerdicts (hfilter : x.codebase.settings.classifier = lists.classifier)
    {s : Showability} (hs : s ∈ x.ownVerdicts.map (·.showability)) : s.Settled := by
  simp only [ownVerdicts, List.map_map, List.mem_map, Function.comp] at hs
  obtain ⟨a, _, rfl⟩ := hs
  rw [Codebase.classify, hfilter]
  exact lists.settled_showability _

namespace Reordered

variable (h : x.Reordered y) (hfilter : x.codebase.settings.classifier = lists.classifier)

include h hfilter

theorem shown : x.shown = y.shown := by
  refine Showability.combineAll_congr (fun _ => settled_of_mem_ownVerdicts hfilter) fun s => ?_
  simp only [List.mem_map, h.mem_ownVerdicts_iff hfilter]

theorem hidesItself : x.hidesItself = y.hidesItself := by
  rw [Element.hidesItself, Element.hidesItself, h.documentation,
    any_congr_mem (h.mem_ownVerdicts_iff hfilter)]

theorem hidden : x.hidden = y.hidden := by
  have hcontents : contentsHidden x.ancestors = contentsHidden y.ancestors := by
    refine contentsHidden_congr ?_
    -- The containers are in the codebase of `x`, so that the same filters classify for them.
    have habove : List.Forall₂ (fun p q => p.codebase = x.codebase ∧ p.Reordered q)
        x.ancestors y.ancestors :=
      (List.forall₂_and_left _ _).mpr ⟨fun _ => x.codebase_of_mem_ancestors, h.ancestors⟩
    refine habove.imp ?_
    rintro p q ⟨hp, hpq⟩
    rw [← hp] at hfilter
    exact ⟨hpq.shown hfilter, hpq.hidesItself hfilter⟩
  rw [Element.hidden, Element.hidden, h.shown hfilter, h.hidesItself hfilter, hcontents]

end Reordered

/-- In a codebase with filters, the combined verdict on an element shows exactly if some annotation
shows, has then the flags of those that do, and has no effect otherwise. Order and repetition of
annotations anywhere in the codebase, on classes of annotations too, are no matter to the status of
any element. The flags are combined in this way for every list of verdicts of which one shows. -/
theorem status_of_annotationSet (lists : FilterLists Filter) :
    (∀ x : Element, x.codebase.settings.classifier = lists.classifier → ∀ looked looked',
      let verdicts := x.modifiers.annotations.map fun a =>
        (x.codebase.verdict a (x.codebase.cacheAfter looked')).1.showability
      let s := answer showability looked x
      (s.shows = true ↔ ∃ v ∈ verdicts, v.shows = true) ∧
        (s.shows = true → Showability.Merges verdicts s) ∧
        (s.shows = false → s = .noEffect)) ∧
    (∀ x y : Element, x.Reordered y → x.codebase.settings.classifier = lists.classifier →
      ∀ looked looked',
        answer showability looked x = answer showability looked' y ∧
        answer isHiddenItself looked x = answer isHiddenItself looked' y ∧
        answer suppressesCompatibility looked x = answer suppressesCompatibility looked' y ∧
        answer isHidden looked x = answer isHidden looked' y) ∧
    ∀ verdicts : List Showability, (∃ v ∈ verdicts, v.shows = true) →
      Showability.Merges verdicts (.combineAll verdicts) := by
  refine ⟨?_, ?_, fun _ => Showability.merges_combineAll⟩
  · intro x hfilter looked looked' verdicts s
    have hverdicts : verdicts = x.ownVerdicts.map (·.showability) := by
      simp only [verdicts, ownVerdicts, List.map_map]
      exact List.map_congr_left fun a _ =>
        congrArg Verdict.showability ((x.codebase.yields_verdict a).cacheAfter looked')
    have hs : s = .combineAll verdicts := by
      rw [hverdicts]
      exact x.yields_showability.cacheAfter looked
    rw [hs, hverdicts]
    exact Showability.flags_combineAll fun _ => settled_of_mem_ownVerdicts hfilter
  · intro x y h hfilter looked looked'
    simp only [answer]
    refine ⟨?_, ?_, ?_, ?_⟩
    · rw [x.yields_showability.cacheAfter, y.yields_showability.cacheAfter, h.shown hfilter]
    · rw [x.yields_isHiddenItself.cacheAfter, y.yields_isHiddenItself.cacheAfter,
        h.hidesItself hfilter]
    · rw [x.yields_suppressesCompatibility.cacheAfter, y.yields_suppressesCompatibility.cacheAfter,
        any_congr_mem (h.mem_ownVerdicts_iff hfilter)]
    · rw [x.yields_isHidden.cacheAfter, y.yields_isHidden.cacheAfter, h.hidden hfilter]

/-- Annotations of two names show, alone and for stubs, and those of a third hide through the class
of an annotation. -/
def noticeLists : FilterLists Filter where
  shownSingly := [⟨"s.Single", []⟩]
  shownForStubs := [⟨"s.Stub", []⟩]
  hiddenByMeta := [⟨"s.HideMarked", []⟩]

/-- A class of annotations, and a class with a method that has an annotation of it. -/
def noticeCalls (onNotice onApi : List AnnotationUse) : List Call :=
  [.addPackage { name := "lib" },
    .addClass 0 none { name := "lib.Notice", modifiers := { annotations := onNotice } },
    .addClass 0 none { name := "lib.Api", modifiers := { annotations := onApi } },
    .addMember 1
      { name := "get"
        ty := some (.primitive {} {} .int)
        modifiers := { annotations := [⟨"lib.Notice", []⟩] } }]

theorem unordered_noticeCalls {onNotice onNotice' onApi onApi' : List AnnotationUse}
    (hnotice : ∀ a, a ∈ onNotice ↔ a ∈ onNotice') (hapi : ∀ a, a ∈ onApi ↔ a ∈ onApi') :
    (noticeCalls onNotice onApi).map Call.unordered =
      (noticeCalls onNotice' onApi').map Call.unordered := by
  simp only [noticeCalls, List.map_cons, Call.unordered, ClassDecl.unordered,
    DeclModifiers.unordered, AnnotationUse.unordered_eq_iff.mpr hnotice,
    AnnotationUse.unordered_eq_iff.mpr hapi]

/-- Annotations on a class and on a class of annotations are put in another order, and some are
repeated. The class is shown as before, and its method is still hidden by an annotation. -/
theorem status_of_annotationSet_notices :
    let single : AnnotationUse := ⟨"s.Single", []⟩
    let stub : AnnotationUse := ⟨"s.Stub", []⟩
    let hide : AnnotationUse := ⟨"s.HideMarked", []⟩
    let other : AnnotationUse := ⟨"s.Other", []⟩
    let settings : Settings := { classifier := noticeLists.classifier }
    let cb := Codebase.build 0 settings (noticeCalls [other, hide] [stub, single])
    let cb' := Codebase.build 0 settings (noticeCalls [hide, other, hide] [single, stub, single])
    let get : Element := .member ⟨cb, 0, ⟨cb, 1⟩, none⟩
    let get' : Element := .member ⟨cb', 0, ⟨cb', 1⟩, none⟩
    Reordered (.cls ⟨cb, 1⟩) (.cls ⟨cb', 1⟩) ∧ get.Reordered get' ∧
      answer showability [] (.cls ⟨cb, 1⟩) = ⟨true, true, false⟩ ∧
      answer showability [other] (.cls ⟨cb', 1⟩) = ⟨true, true, false⟩ ∧
      answer isHidden [hide] get = true ∧ answer isHidden [] get' = true ∧
      (¬ ∃ v ∈ get'.modifiers.annotations.map fun a =>
        (cb'.verdict a (cb'.cacheAfter [])).1.showability, v.shows = true) ∧
      Showability.Merges [⟨true, true, true⟩, ⟨false, true, true⟩, ⟨true, false, false⟩]
        ⟨true, true, false⟩ := by
  intro single stub hide other settings cb cb' get get'
  obtain ⟨hflags, hsets, hfold⟩ := status_of_annotationSet noticeLists
  have hcb : cb.Reordered cb' := by
    refine .build 0 settings (unordered_noticeCalls (fun a => ?_) fun a => ?_)
    · simp only [List.mem_cons, List.not_mem_nil]
      tauto
    · simp only [List.mem_cons, List.not_mem_nil]
      tauto
  have hclass : Reordered (.cls ⟨cb, 1⟩) (.cls ⟨cb', 1⟩) := .cls hcb 1
  have hget : get.Reordered get' := .member hcb hcb 0 1 none none
  have hshown : answer showability [] (.cls ⟨cb, 1⟩) = ⟨true, true, false⟩ := by decide +kernel
  have hhidden : answer isHidden [hide] get = true := by decide +kernel
  have hnone : answer showability [] get' = .noEffect := by decide +kernel
  refine ⟨hclass, hget, hshown, ?_, hhidden, ?_, fun hshow => ?_,
    hfold _ ⟨_, List.mem_cons_self, rfl⟩⟩
  · exact (hsets _ _ hclass rfl [] [other]).1.symm.trans hshown
  · exact (hsets _ _ hget rfl [hide] []).2.2.2.symm.trans hhidden
  · have hshows := (hflags get' rfl [] []).1.mpr hshow
    rw [hnone] at hshows
    cases hshows

end Element

end ApiSurface
