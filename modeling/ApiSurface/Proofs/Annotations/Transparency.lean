import ApiSurface.Proofs.Codebase.Containment
import ApiSurface.Proofs.Element.Status

/-!
Verdicts on annotations by filters, as if there were no cache.

What a cache keeps of an annotation is its name and its relevant attributes, in order. A filter
that asks for an attribute makes it relevant, and asks only whether some attribute fits. So it cannot
tell the relevant attributes from all attributes, and the verdict that is kept for many annotations
is the verdict on each of them as it was written.
-/

namespace ApiSurface

namespace Filter

/-- A written value is the expected one, blanks around it apart, or the qualified name of a constant
that ends in it. -/
def ValueFits (actual expected : String) : Prop :=
  Text.trim actual.toList = expected.toList ∨
    ∃ front, Text.trim actual.toList = front ++ '.' :: expected.toList

/-- The filter is for annotations of this name, and the annotation has every attribute that it asks
for. -/
structure Fits (filter : Filter) (a : AnnotationUse) : Prop where
  name : a.name = filter.name
  attributes : ∀ expected ∈ filter.attributes, ∃ actual ∈ a.attributes,
    actual.name = expected.name ∧ ValueFits actual.value expected.value

theorem valueMatches_iff {actual expected : String} :
    valueMatches actual expected = true ↔ ValueFits actual expected := by
  rw [valueMatches, Bool.or_eq_true, beq_iff_eq, ValueFits]
  refine or_congr_right ?_
  cases hsuffix : expected.toList.isSuffixOf? (Text.trim actual.toList) with
  | none =>
    refine iff_of_false Bool.false_ne_true ?_
    rintro ⟨front, hfront⟩
    have hsome : expected.toList.isSuffixOf? (Text.trim actual.toList) = some (front ++ ['.']) := by
      rw [List.isSuffixOf?_eq_some_iff_append_eq, hfront, List.append_assoc, List.singleton_append]
    rw [hsuffix] at hsome
    cases hsome
  | some before =>
    have hbefore := List.isSuffixOf?_eq_some_iff_append_eq.mp hsuffix
    rw [beq_iff_eq, List.getLast?_eq_some_iff, ← hbefore]
    refine exists_congr fun front => ?_
    have hdot : front ++ '.' :: expected.toList = (front ++ ['.']) ++ expected.toList := by
      rw [List.append_assoc, List.singleton_append]
    rw [hdot, List.append_cancel_right_eq]

theorem selects_iff {filter : Filter} {a : AnnotationUse} :
    filter.selects a.name a.attributes = true ↔ filter.Fits a := by
  simp only [selects, Bool.and_eq_true, beq_iff_eq, List.all_eq_true, List.any_eq_true,
    valueMatches_iff]
  exact ⟨fun h => ⟨h.1, h.2⟩, fun h => ⟨h.name, h.attributes⟩⟩

theorem anySelects_iff {filters : List Filter} {a : AnnotationUse} :
    anySelects filters a.name a.attributes = true ↔ ∃ filter ∈ filters, filter.Fits a := by
  simp only [anySelects, List.any_eq_true, selects_iff]

end Filter

namespace FilterLists

variable (lists : FilterLists Filter)

theorem mem_relevant_iff {name : String} {attributes : List Attribute} {a : Attribute} :
    a ∈ lists.relevant name attributes ↔ a ∈ attributes ∧ lists.asksFor name a.name = true := by
  rw [relevant, Attribute.sort, (List.mergeSort_perm _ _).mem_iff, List.mem_filter]

theorem asksFor_of_mem {filter : Filter} (hfilter : filter ∈ lists.all) {expected : Attribute}
    (hexpected : expected ∈ filter.attributes) :
    lists.asksFor filter.name expected.name = true := by
  rw [asksFor, List.any_eq_true]
  refine ⟨filter, hfilter, ?_⟩
  rw [Bool.and_eq_true, List.any_eq_true]
  exact ⟨beq_self_eq_true _, expected, hexpected, beq_self_eq_true _⟩

/-- No filter of the lists can tell the relevant attributes of an annotation from all of them: what
it asks for is relevant, and it does not ask for an order. -/
theorem selects_relevant {filter : Filter} (hfilter : filter ∈ lists.all) (name : String)
    (attributes : List Attribute) :
    filter.selects name (lists.relevant name attributes) = filter.selects name attributes := by
  rw [Bool.eq_iff_iff]
  simp only [Filter.selects, Bool.and_eq_true, beq_iff_eq, List.all_eq_true, List.any_eq_true,
    mem_relevant_iff]
  refine and_congr_right fun hname => forall₂_congr fun expected hexpected => ?_
  refine exists_congr fun actual => ?_
  constructor
  · rintro ⟨⟨hactual, _⟩, hfits⟩
    exact ⟨hactual, hfits⟩
  · rintro ⟨hactual, hfits⟩
    -- What fits has the name that is asked for, so it is not dropped.
    refine ⟨⟨hactual, ?_⟩, hfits⟩
    rw [hname, hfits.1]
    exact lists.asksFor_of_mem hfilter hexpected

theorem anySelects_relevant_iff (filters : List Filter) (hfilters : filters ∈ lists.toLists)
    (a : AnnotationUse) :
    Filter.anySelects filters a.name (lists.relevant a.name a.attributes) = true ↔
      ∃ filter ∈ filters, filter.Fits a := by
  rw [Filter.anySelects, List.any_eq_true]
  refine exists_congr fun filter => and_congr_right fun hfilter => ?_
  rw [lists.selects_relevant (List.mem_flatten_of_mem hfilters hfilter), Filter.selects_iff]

/-- The verdict that the filters pass on an annotation with all its attributes, when the class of
its name has the annotations `classAnnotations`. -/
structure Judges (lists : FilterLists Filter) (classAnnotations : List AnnotationUse)
    (a : AnnotationUse) (v : Verdict) : Prop where
  name : v.name = a.name
  nullMark : v.nullMark = .ofName a.name
  shown : (∃ filter ∈ lists.shown, filter.Fits a) → v.showability = ⟨true, true, false⟩
  shownSingly : (¬ ∃ filter ∈ lists.shown, filter.Fits a) →
    (∃ filter ∈ lists.shownSingly, filter.Fits a) → v.showability = ⟨true, false, false⟩
  shownForStubs : (¬ ∃ filter ∈ lists.shown, filter.Fits a) →
    (¬ ∃ filter ∈ lists.shownSingly, filter.Fits a) →
    (∃ filter ∈ lists.shownForStubs, filter.Fits a) → v.showability = ⟨true, true, true⟩
  notShown : (¬ ∃ filter ∈ lists.shown, filter.Fits a) →
    (¬ ∃ filter ∈ lists.shownSingly, filter.Fits a) →
    (¬ ∃ filter ∈ lists.shownForStubs, filter.Fits a) → v.showability = ⟨false, false, false⟩
  hides : v.hides = true ↔ (∃ filter ∈ lists.hidden, filter.Fits a) ∨
    ∃ m ∈ classAnnotations, ∃ filter ∈ lists.hiddenByMeta, filter.Fits m
  suppresses : v.suppresses = true ↔
    ∃ m ∈ classAnnotations, ∃ filter ∈ lists.suppressedByMeta, filter.Fits m

theorem judges_classify (metaOf : String → List AnnotationUse) (a : AnnotationUse) :
    lists.Judges (metaOf a.name) a (lists.classifier.classify metaOf a) := by
  have hshown := lists.anySelects_relevant_iff lists.shown (by simp [toLists]) a
  have hsingly := lists.anySelects_relevant_iff lists.shownSingly (by simp [toLists]) a
  have hstubs := lists.anySelects_relevant_iff lists.shownForStubs (by simp [toLists]) a
  have hhidden := lists.anySelects_relevant_iff lists.hidden (by simp [toLists]) a
  constructor
  case name => rfl
  case nullMark => rfl
  case shown =>
    intro h
    exact if_pos (hshown.mpr h)
  case shownSingly =>
    intro h h'
    exact (if_neg (mt hshown.mp h)).trans (if_pos (hsingly.mpr h'))
  case shownForStubs =>
    intro h h' h''
    exact (if_neg (mt hshown.mp h)).trans
      ((if_neg (mt hsingly.mp h')).trans (if_pos (hstubs.mpr h'')))
  case notShown =>
    intro h h' h''
    exact (if_neg (mt hshown.mp h)).trans
      ((if_neg (mt hsingly.mp h')).trans (if_neg (mt hstubs.mp h'')))
  case hides =>
    refine Bool.or_eq_true_iff.trans (or_congr hhidden ?_)
    simp only [List.any_eq_true, Filter.anySelects_iff]
  case suppresses =>
    refine List.any_eq_true.trans ?_
    simp only [Filter.anySelects_iff]

end FilterLists

/-- The annotations of the class of a name, which are none if there is no such class. -/
inductive Tables.ClassAnnotations (t : Tables) (name : String) : List AnnotationUse → Prop where
  | declared {c : ClassId} {e : ClassEntry} (entry : t.classes[c]? = some e)
      (named : e.decl.name = name) : ClassAnnotations t name e.decl.modifiers.annotations
  | missing (missing : ∀ (c : ClassId) (e : ClassEntry), t.classes[c]? = some e →
      e.decl.name ≠ name) : ClassAnnotations t name []

namespace Codebase

variable {cb : Codebase}

theorem classAnnotations_iff (h : cb.tables.Linked) {name : String} {as : List AnnotationUse} :
    cb.tables.ClassAnnotations name as ↔ as = cb.metaAnnotations name := by
  have hindex : ∀ c, cb.tables.classIndex[name]? = some c ↔
      ∃ e, cb.tables.classes[c]? = some e ∧ e.decl.name = name := by
    intro c
    rw [h.classIndex, Tables.classNames, Tables.bareClasses, List.getElem?_map, List.getElem?_map,
      Array.getElem?_toList, Option.map_map, Option.map_eq_some_iff]
    rfl
  rw [metaAnnotations, findClass?]
  cases hfind : cb.tables.classIndex[name]? with
  | none =>
    have hmissing : ∀ (c : ClassId) (e : ClassEntry), cb.tables.classes[c]? = some e →
        e.decl.name ≠ name := by
      intro c e he hname
      rw [(hindex c).mpr ⟨e, he, hname⟩] at hfind
      cases hfind
    constructor
    · rintro (⟨he, hname⟩ | _)
      · exact absurd hname (hmissing _ _ he)
      · rfl
    · rintro rfl
      exact .missing hmissing
  | some c =>
    obtain ⟨e, he, hname⟩ := (hindex c).mp hfind
    simp only [Tables.classAt_eq he]
    constructor
    · rintro (⟨he', hname'⟩ | hmissing)
      · have hsame := (hindex _).mpr ⟨_, he', hname'⟩
        rw [hfind, Option.some.injEq] at hsame
        rw [← hsame, he, Option.some.injEq] at he'
        rw [he']
      · exact absurd hname (hmissing c e he)
    · rintro rfl
      exact .declared he hname

/-- Whatever was looked up before, an annotation has the verdict that the filters pass on it as it
was written, with all its attributes and with the annotations of its class. -/
theorem verdict_judges (number : Nat) (settings : Settings) (lists : FilterLists Filter)
    (calls : List Call) (looked : List AnnotationUse) (a : AnnotationUse) :
    let cb := build number { settings with classifier := lists.classifier } calls
    (∃ classAnnotations,
      (∀ as, cb.tables.ClassAnnotations a.name as ↔ as = classAnnotations) ∧
      lists.Judges classAnnotations a (cb.verdict a (cb.cacheAfter looked)).1) ∧
    (∀ looked',
      (cb.verdict a (cb.cacheAfter looked)).1 = (cb.verdict a (cb.cacheAfter looked')).1) ∧
    ∀ filter ∈ lists.all, ∀ name attributes,
      filter.selects name (lists.relevant name attributes) = filter.selects name attributes := by
  intro cb
  have hverdict : ∀ looked, (cb.verdict a (cb.cacheAfter looked)).1 = cb.classify a :=
    fun looked => (cb.yields_verdict a).cacheAfter looked
  refine ⟨⟨cb.metaAnnotations a.name, fun as => ?_, ?_⟩, fun looked' => ?_,
    fun filter hfilter => ?_⟩
  · exact classAnnotations_iff (Tables.linked_run calls)
  · rw [hverdict]
    exact lists.judges_classify cb.metaAnnotations a
  · rw [hverdict, hverdict]
  · exact lists.selects_relevant hfilter

/-- A repeated attribute whose last value is a qualified constant shows, also after an annotation of
the same name was looked up that does not. -/
theorem verdict_judges_qualified :
    let lists : FilterLists Filter := { shown := [⟨"a.Show", [⟨"client", "LIB"⟩]⟩] }
    let cb := build 0 { classifier := lists.classifier } []
    let looked : List AnnotationUse := [⟨"a.Show", [⟨"client", "X"⟩]⟩]
    (cb.verdict ⟨"a.Show", [⟨"since", "3"⟩, ⟨"client", "X"⟩, ⟨"client", "a.Client.LIB"⟩]⟩
      (cb.cacheAfter looked)).1.showability = ⟨true, true, false⟩ := by
  intro lists cb looked
  obtain ⟨⟨_, _, hjudges⟩, _⟩ := verdict_judges 0 {} lists [] looked
    ⟨"a.Show", [⟨"since", "3"⟩, ⟨"client", "X"⟩, ⟨"client", "a.Client.LIB"⟩]⟩
  refine hjudges.shown ⟨⟨"a.Show", [⟨"client", "LIB"⟩]⟩, List.mem_cons_self, ?_⟩
  exact Filter.selects_iff.mp (by decide +kernel)

end Codebase

end ApiSurface
