import ApiSurface.Annotations.VerdictCache

/-!
What a cache of verdicts answers.

A verdict depends on nothing but the identity of an annotation: its name and its relevant attributes.
So a cache that holds verdicts of one classifier answers as the classifier does, whatever was looked
up before. A computation that only looks up verdicts then has one answer in all such caches, and
`Yields` says which.
-/

namespace ApiSurface

/-- The verdict on all annotations of this identity. -/
def Classifier.judge (classifier : Classifier) (metaOf : String → List AnnotationUse)
    (name : String) (attributes : List Attribute) : Verdict where
  name := name
  attributes := attributes
  nullMark := .ofName name
  showability := classifier.showability ⟨name, attributes, metaOf name⟩
  hides := classifier.hides ⟨name, attributes, metaOf name⟩
  suppresses := classifier.suppresses ⟨name, attributes, metaOf name⟩

theorem Classifier.classify_eq_judge (classifier : Classifier)
    (metaOf : String → List AnnotationUse) (a : AnnotationUse) :
    classifier.classify metaOf a =
      classifier.judge metaOf a.name (classifier.relevant a.name a.attributes) := rfl

namespace VerdictCache

variable {classifier : Classifier} {metaOf : String → List AnnotationUse} {cache : VerdictCache}

/-- Every entry is the verdict on its identity. -/
def Sound (classifier : Classifier) (metaOf : String → List AnnotationUse)
    (cache : VerdictCache) : Prop :=
  ∀ v ∈ cache.infos, v = classifier.judge metaOf v.name v.attributes

theorem sound_empty : Sound classifier metaOf empty := by
  intro v hv
  cases hv

theorem of_find?_eq_some {name : String} {attributes : List Attribute} {info : Verdict}
    {slot : Nat} (h : cache.find? name attributes = some (info, slot)) :
    info ∈ cache.infos ∧ info.name = name ∧ info.attributes = attributes := by
  have hmem := List.mem_of_find?_eq_some h
  have hsame := List.find?_some h
  rw [Bool.and_eq_true, beq_iff_eq, beq_iff_eq] at hsame
  exact ⟨List.fst_mem_of_mem_zipIdx hmem, hsame⟩

/-- A look-up in a sound cache gives the verdict of the classifier and keeps the cache sound. -/
theorem Sound.lookup (h : cache.Sound classifier metaOf) (a : AnnotationUse) :
    (lookup classifier metaOf a cache).1.info = classifier.classify metaOf a ∧
      (lookup classifier metaOf a cache).2.Sound classifier metaOf := by
  rw [VerdictCache.lookup]
  cases hfind : cache.find? a.name (classifier.relevant a.name a.attributes) with
  | some found =>
    obtain ⟨info, slot⟩ := found
    obtain ⟨hmem, hname, hattributes⟩ := of_find?_eq_some hfind
    have hinfo := h info hmem
    rw [hname, hattributes, ← Classifier.classify_eq_judge] at hinfo
    exact ⟨hinfo, h⟩
  | none =>
    refine ⟨rfl, ?_⟩
    intro v hv
    rcases List.mem_append.mp hv with hold | hnew
    · exact h v hold
    · obtain rfl := List.mem_singleton.mp hnew
      rfl

/-- In every sound cache the computation answers `value`, and it keeps the cache sound. -/
def Yields {α : Type} (classifier : Classifier) (metaOf : String → List AnnotationUse)
    (x : StateM VerdictCache α) (value : α) : Prop :=
  ∀ cache : VerdictCache, cache.Sound classifier metaOf →
    (x cache).1 = value ∧ (x cache).2.Sound classifier metaOf

namespace Yields

variable {α β : Type}

theorem pure (value : α) : Yields classifier metaOf (Pure.pure value) value :=
  fun _ h => ⟨rfl, h⟩

theorem bind {x : StateM VerdictCache α} {f : α → StateM VerdictCache β} {a : α} {b : β}
    (hx : Yields classifier metaOf x a) (hf : Yields classifier metaOf (f a) b) :
    Yields classifier metaOf (x >>= f) b := by
  intro cache h
  obtain ⟨hvalue, hsound⟩ := hx cache h
  have hnext := hf (x cache).2 hsound
  rw [← hvalue] at hnext
  exact hnext

theorem mapM {f : α → StateM VerdictCache β} {g : α → β}
    (hf : ∀ a, Yields classifier metaOf (f a) (g a)) (as : List α) :
    Yields classifier metaOf (as.mapM f) (as.map g) := by
  induction as with
  | nil =>
    rw [List.mapM_nil]
    exact pure []
  | cons a as ih =>
    rw [List.mapM_cons]
    exact (hf a).bind (ih.bind (pure (g a :: as.map g)))

end Yields

theorem yields_lookup (a : AnnotationUse) :
    Yields classifier metaOf (Lookup.info <$> lookup classifier metaOf a)
      (classifier.classify metaOf a) :=
  fun _ h => h.lookup a

end VerdictCache

end ApiSurface
