import ApiSurface.Proofs.Ty.Alignment

/-!
What the text of a type does not depend on.

Of the modifiers of a node a text shows the annotations and the mark, each if the options ask for it.
So an edit of modifiers that keeps these two texts at every node keeps the text of the tree. An erased
text shows neither, whatever else the options ask for, and no arguments and no dots: aligned trees
have the same erased text.
-/

namespace ApiSurface

namespace RenderOptions

/-- The modifiers look the same in a text. -/
structure SeesSame (o : RenderOptions) (m m' : TypeModifiers) : Prop where
  annotations : o.annotationText m = o.annotationText m'
  mark : o.markText m = o.markText m'

variable {o : RenderOptions} {m m' : TypeModifiers}

theorem SeesSame.forOuter (h : o.SeesSame m m') : o.forOuter.SeesSame m m' where
  annotations := h.annotations
  mark := rfl

theorem seesSame_of_erased (ho : o.erased = true) : o.SeesSame m m' where
  annotations := by rw [annotationText_of_erased ho, annotationText_of_erased ho]
  mark := by rw [markText_of_erased ho, markText_of_erased ho]

/-- Modifiers look the same if what the options ask for is the same. -/
theorem seesSame_of_asked (hmark : o.nullMarks = true → m.nullability.suffix = m'.nullability.suffix)
    (hnames : o.annotations = true → m.annotations.map (·.name) = m'.annotations.map (·.name)) :
    o.SeesSame m m' where
  annotations := by
    have htexts : ∀ m : TypeModifiers, m.annotations.map (fun a => "@" ++ a.name ++ " ") =
        (m.annotations.map (·.name)).map fun name => "@" ++ name ++ " " := by
      intro m
      rw [List.map_map]
      rfl
    rw [annotationText, annotationText]
    split_ifs with hasked
    · rw [htexts, htexts, hnames (Bool.and_eq_true_iff.mp hasked).1]
    · rfl
  mark := by
    rw [markText, markText]
    split_ifs with hasked
    · exact hmark (Bool.and_eq_true_iff.mp hasked).1
    · rfl

end RenderOptions

theorem Editor.thorough_modifiers (h : Ident → TypeModifiers → TypeModifiers) :
    Thorough { modifiers := h } :=
  thorough_ofHooks h fun _ _ => none

namespace Ty

/-- An edit of modifiers by `h` at `p` keeps what a text shows of them at every node. -/
def KeepsSeen (h : Ident → TypeModifiers → TypeModifiers) (o : RenderOptions) (p : Ident) (t : Ty) :
    Prop :=
  ∀ path s, t.descend path = some s → o.SeesSame (h (p.along path) s.mods) s.mods

namespace KeepsSeen

variable {h : Ident → TypeModifiers → TypeModifiers} {o : RenderOptions} {p : Ident} {t : Ty}

theorem root (ht : t.KeepsSeen h o p) : o.SeesSame (h p t.mods) t.mods := ht [] t rfl

theorem part (ht : t.KeepsSeen h o p) {k : Nat} {c : Ty} (hc : t.child? k = some c) :
    c.KeepsSeen h o (p.child k) := by
  intro path s hs
  exact ht (k :: path) s (descend_cons_eq_some_iff.mpr ⟨c, hc, hs⟩)

theorem forOuter (ht : t.KeepsSeen h o p) : t.KeepsSeen h o.forOuter p :=
  fun path s hs => (ht path s hs).forOuter

/-- A lambda has the modifiers and the parts of its class type. -/
theorem of_lambda {suspend receiver : Bool} {c : ClassTy}
    (ht : (lambda suspend receiver c).KeepsSeen h o p) : (cls c).KeepsSeen h o p := by
  intro path s hs
  cases path with
  | nil =>
    obtain rfl := Option.some.inj hs
    exact ht.root
  | cons k ks =>
    refine ht (k :: ks) s ?_
    cases k <;> exact hs

end KeepsSeen

section Modifiers

variable (h : Ident → TypeModifiers → TypeModifiers)

theorem isObject_edit_modifiers (p : Ident) (t : Ty) :
    (Editor.edit { modifiers := h } p t).isObject = t.isObject := by
  have he := Editor.thorough_modifiers h
  by_cases ht : t.kind = .var
  · cases t with
    | var v =>
      rw [Editor.edit, Editor.editVar]
      simp only
      split_ifs <;> rfl
    | _ => cases ht
  · exact he.isObject_edit_eq p ht

/-- An edit that keeps what a text shows of the modifiers keeps the text. -/
theorem render_edit_modifiers :
    (∀ t o p, KeepsSeen h o p t → (Editor.edit { modifiers := h } p t).render o = t.render o) ∧
      ∀ c o p, KeepsSeen h o p (cls c) →
        (Editor.rebuild { modifiers := h } p c).render o = c.render o := by
  have he := Editor.thorough_modifiers h
  apply Ty.induct
  case primitive =>
    intro i m k o p ht
    have hseen : o.SeesSame (h p m) m := ht.root
    rw [he.edit_primitive, render, render, hseen.annotations]
  case array =>
    intro i m v c ih o p ht
    have hseen : o.SeesSame (h p m) m := ht.root
    rw [he.edit_array, render, render, ih o (p.child 0) (ht.part rfl), hseen.annotations, hseen.mark]
  case cls =>
    intro c ih o p ht
    rw [he.edit_cls, render, render, ih o p ht]
  case lambda =>
    intro s r c ih o p ht
    rw [he.edit_lambda, render, render, ih o p ht.of_lambda]
  case var =>
    intro v o p ht
    have hseen : o.SeesSame (h p v.mods) v.mods := ht.root
    rw [Editor.edit, Editor.editVar]
    simp only [Bool.false_eq_true, false_or]
    split_ifs
    · rfl
    · rw [render, render, hseen.annotations, hseen.mark]
  case wildcard =>
    intro i m u l hu hl o p ht
    rw [he.edit_wildcard]
    rcases l with _ | lower
    · rcases u with _ | upper
      · rfl
      · rw [Option.map_some, Option.map_none, render, render, isObject_edit_modifiers,
          hu upper rfl o (p.child 0) (ht.part rfl)]
    · rw [Option.map_some, render, render, hl lower rfl o (p.child 1) (ht.part rfl)]
  case mk =>
    intro i m n outer as houter has o p ht
    have hseen : o.SeesSame (h p m) m := ht.root
    -- an outer type is written with other options, which see no more than `o` does
    have houters : ClassTy.renderOuter o (outer.map (Editor.rebuild { modifiers := h } (p.child 0))) =
        ClassTy.renderOuter o outer := by
      cases outer with
      | none => rfl
      | some c =>
        have hpart : (cls c).KeepsSeen h o (p.child 0) := ht.part rfl
        rw [Option.map_some, ClassTy.renderOuter, ClassTy.renderOuter,
          houter c rfl o.forOuter (p.child 0) hpart.forOuter]
    have hargs : renderArgs o (Editor.editArgs { modifiers := h } p 1 as) = renderArgs o as := by
      apply List.ext_getElem?
      intro k
      rw [renderArgs_eq, renderArgs_eq, Editor.editArgs, List.getElem?_map, List.getElem?_mapIdx,
        List.getElem?_map, Nat.add_comm 1 k]
      cases hk : as[k]? with
      | none => rfl
      | some d =>
        have hpart : d.KeepsSeen h o (p.child (k + 1)) := ht.part hk
        exact congrArg some (has d (List.mem_of_getElem? hk) o (p.child (k + 1)) hpart)
    have hsimple := he.simpleName_rebuild p ⟨i, m, n, outer, as⟩
    rw [he.rebuild] at hsimple ⊢
    rw [ClassTy.render, ClassTy.render, houters, hargs, hsimple, hseen.annotations, hseen.mark]

end Modifiers

namespace Aligned

theorem isObject {ρ : String → String → Prop} {t t' : Ty} (h : t.Aligned ρ t') :
    t.isObject = t'.isObject := by
  cases h with
  | cls cls => exact congrArg (· == objectName) cls.name
  | lambda cls => exact congrArg (· == objectName) cls.name
  | _ => rfl

/-- Erased texts of types that are aligned without a renaming are equal, whatever else is asked
for. -/
theorem render_of_erased {t t' : Ty} (h : t.Aligned Eq t') {o o' : RenderOptions}
    (ho : o.erased = true) (ho' : o'.erased = true) : t.render o = t'.render o' := by
  induction t using induct_child generalizing t' with
  | node t ih =>
    cases h with
    | primitive =>
      rw [render, render, o.annotationText_of_erased ho, o'.annotationText_of_erased ho']
    | array component =>
      rw [render, render, ih 0 _ rfl component, o.annotationText_of_erased ho,
        o'.annotationText_of_erased ho', o.markText_of_erased ho, o'.markText_of_erased ho', ho, ho']
      simp
    | cls cls => exact cls.render_of_erased ho ho'
    | lambda cls => exact cls.render_of_erased ho ho'
    | var renamed =>
      rw [render, render, renamed, o.annotationText_of_erased ho, o'.annotationText_of_erased ho',
        o.markText_of_erased ho, o'.markText_of_erased ho']
    | wildcard upper lower =>
      cases lower with
      | some lower => rw [render, render, ih 1 _ rfl lower]
      | none =>
        cases upper with
        | some upper => rw [render, render, upper.isObject, ih 0 _ rfl upper]
        | none => rfl

end Aligned

/-- A text depends only on what its options ask for. An edit of modifiers by `h` does not change it if
it is an erased one, if no part of modifiers is asked for, or if `h` keeps at every node the parts
that are asked for. An erased text depends neither on what else is asked for nor on identities,
modifiers, dots and type arguments. -/
theorem render_noninterference (h : Ident → TypeModifiers → TypeModifiers) (p : Ident) (t : Ty)
    (o : RenderOptions) :
    ((o.erased = true ∨ (o.nullMarks = false ∧ o.annotations = false) ∨
        ∀ path s, t.descend path = some s →
          (o.nullMarks = true →
            (h (p.along path) s.mods).nullability.suffix = s.mods.nullability.suffix) ∧
          (o.annotations = true →
            (h (p.along path) s.mods).annotations.map (·.name) =
              s.mods.annotations.map (·.name))) →
      (Editor.edit { modifiers := h } p t).render o = t.render o) ∧
    (o.erased = true → ∀ o' t', o'.erased = true → t.Aligned Eq t' → t'.render o' = t.render o) := by
  constructor
  · intro hasked
    apply (render_edit_modifiers h).1
    intro path s hs
    rcases hasked with herased | ⟨hmarks, hannotations⟩ | hkept
    · exact RenderOptions.seesSame_of_erased herased
    · apply RenderOptions.seesSame_of_asked
      · rw [hmarks]
        exact fun hno => absurd hno Bool.false_ne_true
      · rw [hannotations]
        exact fun hno => absurd hno Bool.false_ne_true
    · exact RenderOptions.seesSame_of_asked (hkept path s hs).1 (hkept path s hs).2
  · intro ho o' t' ho' ht
    exact (ht.render_of_erased ho ho').symm

/-- Drops from modifiers what no text shows: the attributes of annotations, and whether a type without
a mark is known not to be null. -/
def dropUnshown (id : Ident) (m : TypeModifiers) : TypeModifiers where
  id := id
  nullability := if m.nullability = .nonNull then .undefined else m.nullability
  annotations := m.annotations.map fun a => { a with attributes := [] }

/-- An array of a class inside `p.Outer<@q.A T>`. -/
def annotatedInner (mods : TypeModifiers) (varargs : Bool) (args : List Ty) : Ty :=
  .array {} mods varargs
    (.cls ⟨{}, { nullability := .nonNull }, "p.Outer.Inner",
      some ⟨{}, {}, "p.Outer", none,
        [.var { name := "T", mods := { annotations := [⟨"q.A", [⟨"since", "1"⟩]⟩] } }]⟩, args⟩)

/-- The edit changes nodes at every depth and no text; dots, the mark and the wildcard are lost in the
erased text. -/
theorem render_noninterference_unshown :
    let t := annotatedInner { nullability := .nullable } true [.wildcard {} {} none none]
    (Editor.edit { modifiers := dropUnshown } ⟨1, []⟩ t ≠ t ∧
      (Editor.edit { modifiers := dropUnshown } ⟨1, []⟩ t).render ⟨true, true, false⟩ =
        "p.Outer<@q.A T>.Inner<?>...?") ∧
    t.render ⟨true, true, true⟩ = "p.Outer.Inner[]" := by
  intro t
  refine ⟨⟨by decide +kernel, ?_⟩, ?_⟩
  · rw [(render_noninterference dropUnshown ⟨1, []⟩ t ⟨true, true, false⟩).1]
    · decide +kernel
    · refine .inr (.inr fun path s _ => ⟨fun _ => ?_, fun _ => ?_⟩)
      · cases hn : s.mods.nullability <;> simp [dropUnshown, hn, Nullability.suffix]
      · simp [dropUnshown]
  · have haligned : (annotatedInner {} false []).Aligned Eq t := .array (.cls (.inner .topLevel))
    rw [(render_noninterference dropUnshown ⟨1, []⟩ (annotatedInner {} false []) .erasure).2 rfl
      ⟨true, true, true⟩ t rfl haligned]
    decide +kernel

-- A mark that is asked for and not kept shows.
example :
    (Editor.edit { modifiers := fun q => .withNullability q .nullable } {}
      (.var { name := "T" })).render { nullMarks := true } = "T?" ∧
    (var { name := "T" }).render { nullMarks := true } = "T!" := by decide +kernel

end Ty

end ApiSurface
