import ApiSurface.Proofs.Codebase.Nesting
import ApiSurface.Proofs.Element.Status

/-!
Which elements are hidden.

The containers of an element are those that are met by going from parent to parent, up to a package.
Among them the nearest that is hidden itself or shows its contents decides for all that it contains;
one that shows itself only is passed over.
-/

namespace ApiSurface.Element

/-- Going from parent to parent, `x` has the containers `ps`, and the last one has no parent. -/
inductive Outward : Element → List Element → Prop where
  | top {x : Element} (parent : x.parent? = none) : Outward x []
  | step {x p : Element} {ps : List Element} (parent : x.parent? = some p) (rest : Outward p ps) :
      Outward x (p :: ps)

variable {x : Element} {ps : List Element}

namespace Outward

theorem unique {qs : List Element} (h : x.Outward ps) (h' : x.Outward qs) : ps = qs := by
  induction h generalizing qs with
  | top parent =>
    cases h' with
    | top _ => rfl
    | step parent' _ =>
      rw [parent] at parent'
      cases parent'
  | step parent _ ih =>
    cases h' with
    | top parent' =>
      rw [parent] at parent'
      cases parent'
    | step parent' rest' =>
      rw [parent, Option.some.injEq] at parent'
      subst parent'
      rw [ih rest']

/-- The last container is a package. -/
theorem ends (h : x.Outward ps) : ∃ top : PackageRef, (x :: ps).getLast? = some (.package top) := by
  induction h with
  | @top x parent =>
    cases x with
    | package top => exact ⟨top, rfl⟩
    | cls c =>
      simp only [parent?] at parent
      split at parent <;> cases parent
    | _ => cases parent
  | step _ _ ih =>
    obtain ⟨top, htop⟩ := ih
    exact ⟨top, by rw [List.getLast?_cons_cons, htop]⟩

end Outward

/-- Above a class stand its container and what is above that, or else its package. -/
theorem aboveClass_eq {cb : Codebase} (h : cb.tables.Linked) (c : ClassId) :
    aboveClass ⟨cb, c⟩ =
      (cb.tables.classAt c).container.elim [.package ⟨cb, (cb.tables.classAt c).package⟩]
        fun outer => .cls ⟨cb, outer⟩ :: aboveClass ⟨cb, outer⟩ := by
  have hcontainers : ∀ c, cb.tables.enclosing c = c :: cb.tables.containers c := by
    intro c
    rw [Tables.containers, h.enclosing_eq, List.tail_cons]
  simp only [aboveClass, ClassRef.package, ClassRef.entry]
  rw [Tables.containers, h.enclosing_eq c, List.tail_cons]
  cases hcont : (cb.tables.classAt c).container with
  | none => rfl
  | some outer =>
    rw [Option.elim_some, hcontainers outer, ← h.package_of_nests hcont]
    rfl

theorem parent?_cls (cb : Codebase) (c : ClassId) :
    parent? (.cls ⟨cb, c⟩) =
      some ((cb.tables.classAt c).container.elim (.package ⟨cb, (cb.tables.classAt c).package⟩)
        fun outer => .cls ⟨cb, outer⟩) := by
  simp only [parent?, ClassRef.container?, ClassRef.package, ClassRef.entry]
  cases (cb.tables.classAt c).container <;> rfl

theorem outward_class {cb : Codebase} (h : cb.tables.Linked) (c : ClassId) :
    Outward (.cls ⟨cb, c⟩) (aboveClass ⟨cb, c⟩) := by
  induction c using Nat.strongRecOn with
  | ind c ih =>
    have hparent := parent?_cls cb c
    rw [aboveClass_eq h]
    cases hcont : (cb.tables.classAt c).container with
    | none =>
      rw [hcont] at hparent
      exact .step hparent (.top rfl)
    | some outer =>
      rw [hcont] at hparent
      exact .step hparent (ih outer (h.container_lt hcont).1)

/-- In linked tables the containers of an element are met by going from parent to parent. -/
theorem outward_ancestors (h : x.codebase.tables.Linked) : x.Outward x.ancestors := by
  cases x with
  | package p => exact .top rfl
  | cls c => exact outward_class h c.id
  | typeAlias a => exact .step rfl (.top rfl)
  | member m => exact .step rfl (outward_class h m.container.id)
  | parameter p => exact .step rfl (.step rfl (outward_class h p.member.container.id))

/-- Contents are hidden exactly if some container is hidden itself and neither it nor one below it
shows its contents. -/
theorem contentsHidden_iff :
    contentsHidden ps = true ↔ ∃ i p, ps[i]? = some p ∧ p.hidesItself = true ∧
      ∀ q ∈ ps.take (i + 1), q.shown.showsContents = false := by
  induction ps with
  | nil => simp [contentsHidden]
  | cons p ps ih =>
    rw [contentsHidden, Bool.and_eq_true, Bool.or_eq_true, ih, Bool.not_eq_true']
    constructor
    · rintro ⟨hshows, hhidden | ⟨i, q, hq, hhidden, hbelow⟩⟩
      · exact ⟨0, p, rfl, hhidden, by simpa using hshows⟩
      · exact ⟨i + 1, q, hq, hhidden, by simpa using ⟨hshows, hbelow⟩⟩
    · rintro ⟨i, q, hq, hhidden, hbelow⟩
      rw [List.take_succ_cons, List.forall_mem_cons] at hbelow
      refine ⟨hbelow.1, ?_⟩
      cases i with
      | zero =>
        obtain rfl := Option.some.inj hq
        exact .inl hhidden
      | succ i => exact .inr ⟨i, q, hq, hhidden, hbelow.2⟩

/-- The nearest container that shows its contents or is hidden itself decides. -/
theorem contentsHidden_eq_find? :
    contentsHidden ps =
      (ps.find? fun p => p.shown.showsContents || p.hidesItself).any (!·.shown.showsContents) := by
  induction ps with
  | nil => rfl
  | cons p ps ih =>
    rw [contentsHidden, List.find?_cons, ih]
    cases hshows : p.shown.showsContents <;> cases p.hidesItself <;> simp [hshows]

/-- What a question about an element is answered when these annotations were looked up in its
codebase before. -/
def answer {α : Type} (question : Element → StateM VerdictCache α) (looked : List AnnotationUse)
    (x : Element) : α :=
  (question x (x.codebase.cacheAfter looked)).1

/-- The containers of an element of a built codebase are those from parent to parent, up to a
package. The element is hidden exactly if its annotations do not show it, and it is hidden itself or
some container is, without it or one nearer showing its contents. So the nearest container that
shows its contents or is hidden itself decides, and showing wins over hiding. -/
theorem isHidden_iff (number : Nat) (settings : Settings) (calls : List Call) (x : Element)
    (hx : x.codebase = .build number settings calls) :
    ∃ ps, (∀ qs, x.Outward qs ↔ qs = ps) ∧
      (∃ top : PackageRef, (x :: ps).getLast? = some (.package top)) ∧
      ∀ looked looked',
        (answer isHidden looked x = true ↔
          (answer showability looked' x).shows = false ∧
            (answer isHiddenItself looked' x = true ∨
              ∃ i p, ps[i]? = some p ∧ answer isHiddenItself looked' p = true ∧
                ∀ q ∈ ps.take (i + 1), ¬ ((answer showability looked' q).shows = true ∧
                  (answer showability looked' q).recursive = true))) ∧
        answer isHidden looked x =
          (!(answer showability looked' x).shows && (answer isHiddenItself looked' x ||
            (ps.find? fun p => (answer showability looked' p).showsContents ||
              answer isHiddenItself looked' p).any
                fun p => !(answer showability looked' p).showsContents)) := by
  have hlinked : x.codebase.tables.Linked := by
    rw [hx]
    exact Tables.linked_run calls
  have houtward := outward_ancestors hlinked
  refine ⟨x.ancestors, fun qs => ⟨fun h => h.unique houtward, fun h => h ▸ houtward⟩,
    houtward.ends, ?_⟩
  intro looked looked'
  have hshown : ∀ y : Element, answer showability looked' y = y.shown :=
    fun y => y.yields_showability.cacheAfter looked'
  have hitself : ∀ y : Element, answer isHiddenItself looked' y = y.hidesItself :=
    fun y => y.yields_isHiddenItself.cacheAfter looked'
  have hhidden : answer isHidden looked x = x.hidden := x.yields_isHidden.cacheAfter looked
  simp only [hshown, hitself, hhidden]
  constructor
  · rw [hidden, Bool.and_eq_true, Bool.or_eq_true, Bool.not_eq_true', contentsHidden_iff]
    simp only [Showability.showsContents, Bool.and_eq_false_iff, not_and_or, Bool.not_eq_true]
  · rw [hidden, contentsHidden_eq_find?]

/-- Annotations of three names show with contents, show alone and hide. -/
def markedSettings : Settings where
  classifier := FilterLists.classifier
    { shown := [⟨"s.Show", []⟩], shownSingly := [⟨"s.ShowSingly", []⟩], hidden := [⟨"s.Hide", []⟩] }

/-- A hidden package with a class that is both shown with its contents and hidden, in it a class
that is shown alone, and in that a class with a method. -/
def markedCalls : List Call :=
  [.addPackage { name := "lib", documentation := "Internal. @hide" },
    .addClass 0 none
      { name := "lib.Outer", modifiers := { annotations := [⟨"s.Hide", []⟩, ⟨"s.Show", []⟩] } },
    .addClass 0 (some 0)
      { name := "lib.Outer.Middle", modifiers := { annotations := [⟨"s.ShowSingly", []⟩] } },
    .addClass 0 (some 1) { name := "lib.Outer.Middle.Inner" },
    .addMember 2
      { name := "put"
        ty := some (.primitive {} {} .boolean)
        parameters := [{ ty := .primitive {} {} .int }] },
    .addClass 0 none
      { name := "lib.Other", modifiers := { annotations := [⟨"s.ShowSingly", []⟩] } }]

def marked : Codebase := .build 0 markedSettings markedCalls

/-- The parameter of a method in a nested class is shown, because the outermost class shows its
contents, and the class that is shown alone is passed over. The same parameter, with the method seen
in another class that is shown alone, is hidden by the package. -/
theorem isHidden_iff_marked :
    let m : MemberRef := { home := marked, id := 0, container := ⟨marked, 2⟩ }
    let x : Element := .parameter ⟨m, 0⟩
    let y : Element := .parameter ⟨m.duplicate ⟨marked, 3⟩, 0⟩
    x.codebase = .build 0 markedSettings markedCalls ∧
      y.codebase = .build 0 markedSettings markedCalls ∧
      x.ancestors.length = 5 ∧ answer isHidden [] x = false ∧ answer isHidden [] y = true := by
  intro m x y
  obtain ⟨ps, hps, _, hx⟩ := isHidden_iff 0 markedSettings markedCalls x rfl
  obtain ⟨qs, hqs, _, hy⟩ := isHidden_iff 0 markedSettings markedCalls y rfl
  obtain rfl : x.ancestors = ps := (hps _).mp (outward_ancestors (Tables.linked_run markedCalls))
  obtain rfl : y.ancestors = qs := (hqs _).mp (outward_ancestors (Tables.linked_run markedCalls))
  refine ⟨rfl, rfl, by decide +kernel, (hx [] []).2.trans ?_, (hy [] []).2.trans ?_⟩
  · decide +kernel
  · decide +kernel

end ApiSurface.Element
