import ApiSurface.Ty.Induction
import ApiSurface.Ty.Render
import Mathlib.Data.List.Basic

/-!
The nullability marks in the text of a type.

An outer class type is written without its own mark, and the option that says so reaches everything
below it. `Ty.markedText` is the text in which primitives, wildcards and outer class types are all
that bear no mark. The text of a type is the marked text of the tree that is muted under its outer
class types, so the two texts differ exactly if an argument of an outer class type has a mark to
lose.
-/

namespace ApiSurface

namespace Text

/-- The first text is the second with characters left out. -/
def Thins (s s' : String) : Prop := s.toList.Sublist s'.toList

namespace Thins

variable {s s' t t' : String}

theorem refl (s : String) : Thins s s := List.Sublist.refl _

theorem append (hs : Thins s s') (ht : Thins t t') : Thins (s ++ t) (s' ++ t') := by
  rw [Thins, String.toList_append, String.toList_append]
  exact List.Sublist.append hs ht

theorem trans (h : Thins s s') (h' : Thins s' t) : Thins s t := List.Sublist.trans h h'

theorem antisymm (h : Thins s s') (h' : Thins s' s) : s = s' :=
  String.toList_injective (List.Sublist.antisymm h h')

/-- Nothing makes up for a character that is left out. -/
theorem append_eq_iff (hs : Thins s s') (ht : Thins t t') :
    s ++ t = s' ++ t' ↔ s = s' ∧ t = t' := by
  constructor
  · intro h
    have hlength : (s ++ t).toList.length = (s' ++ t').toList.length := by rw [h]
    rw [String.toList_append, String.toList_append, List.length_append, List.length_append]
      at hlength
    have hs' := hs.length_le
    have ht' := ht.length_le
    exact ⟨String.toList_injective (hs.eq_of_length (by omega)),
      String.toList_injective (ht.eq_of_length (by omega))⟩
  · rintro ⟨rfl, rfl⟩
    rfl

end Thins

/-- The first text is the second with characters left out, and all of it exactly if `p` holds. -/
structure WholeIff (p : Prop) (s s' : String) : Prop where
  thins : Thins s s'
  eq_iff : s = s' ↔ p

namespace WholeIff

variable {p q : Prop} {s s' t t' : String}

theorem append (hs : WholeIff p s s') (ht : WholeIff q t t') :
    WholeIff (p ∧ q) (s ++ t) (s' ++ t') where
  thins := hs.thins.append ht.thins
  eq_iff := (hs.thins.append_eq_iff ht.thins).trans (and_congr hs.eq_iff ht.eq_iff)

theorem append_same (hs : WholeIff p s s') (t : String) : WholeIff p (s ++ t) (s' ++ t) where
  thins := hs.thins.append (.refl t)
  eq_iff := (String.append_left_inj t).trans hs.eq_iff

theorem same_append (s : String) (ht : WholeIff p t t') : WholeIff p (s ++ t) (s ++ t') where
  thins := (Thins.refl s).append ht.thins
  eq_iff := (String.append_right_inj s).trans ht.eq_iff

variable {α : Type} {f g : α → String} {as : List α} {r : α → Prop}

theorem intercalate (separator : String) (h : ∀ a ∈ as, WholeIff (r a) (f a) (g a)) :
    WholeIff (∀ a ∈ as, r a) (separator.intercalate (as.map f))
      (separator.intercalate (as.map g)) := by
  induction as with
  | nil => exact ⟨.refl _, by simp⟩
  | cons a as ih =>
    have ha := h a List.mem_cons_self
    have has := ih fun b hb => h b (List.mem_cons_of_mem a hb)
    cases as with
    | nil => simpa using ha
    | cons b bs =>
      simp only [List.map_cons, String.intercalate_cons_cons] at has ⊢
      rw [List.forall_mem_cons]
      exact (ha.append_same separator).append has

theorem argumentText (h : ∀ a ∈ as, WholeIff (r a) (f a) (g a)) :
    WholeIff (∀ a ∈ as, r a) (RenderOptions.argumentText (as.map f))
      (RenderOptions.argumentText (as.map g)) := by
  cases as with
  | nil => exact ⟨.refl _, by simp⟩
  | cons a as => exact ((intercalate ", " h).same_append "<").append_same ">"

end WholeIff

end Text

mutual

/-- The text of a type in which every node bears its mark, but for primitives, wildcards and outer
class types. -/
def Ty.markedText (o : RenderOptions) : Ty → String
  | .primitive _ m k => o.annotationText m ++ k.keyword
  | .array _ m varargs c =>
    c.markedText o ++ o.annotationText m ++ (if varargs then "..." else "[]") ++
      m.nullability.suffix
  | .cls c => c.markedName o ++ c.mods.nullability.suffix
  | .lambda _ _ c => c.markedName o ++ c.mods.nullability.suffix
  | .var v => o.annotationText v.mods ++ v.name ++ v.mods.nullability.suffix
  | .wildcard _ _ _ (some lower) => "? super " ++ lower.markedText o
  | .wildcard _ _ (some upper) none =>
    if upper.isObject then "?" else "? extends " ++ upper.markedText o
  | .wildcard _ _ none none => "?"

def Ty.markedArgs (o : RenderOptions) : List Ty → List String
  | [] => []
  | t :: ts => t.markedText o :: Ty.markedArgs o ts

/-- The text of a class type without its own mark. -/
def ClassTy.markedName (o : RenderOptions) (c : ClassTy) : String :=
  match c with
  | ⟨id, m, name, outer, args⟩ =>
    (match ClassTy.markedOuter o outer with
      | some text =>
        text ++ "." ++ o.annotationText m ++ (ClassTy.mk id m name outer args).simpleName
      | none => o.annotationText m ++ name) ++
      RenderOptions.argumentText (Ty.markedArgs o args)

def ClassTy.markedOuter (o : RenderOptions) : Option ClassTy → Option String
  | none => none
  | some c => some (c.markedName o)

end

/-- The modifiers without a mark, if they are under an outer class type. -/
def TypeModifiers.muted (under : Bool) (m : TypeModifiers) : TypeModifiers :=
  if under then { m with nullability := .nonNull } else m

mutual

/-- The type without marks on the arguments of outer class types, and without any mark if it is
itself under an outer class type. -/
def Ty.muted (under : Bool) : Ty → Ty
  | .primitive i m k => .primitive i (m.muted under) k
  | .array i m v c => .array i (m.muted under) v (c.muted under)
  | .cls c => .cls (c.muted under)
  | .lambda s r c => .lambda s r (c.muted under)
  | .var v => .var { v with mods := v.mods.muted under }
  | .wildcard i m u l =>
    .wildcard i (m.muted under) (Ty.mutedOption under u) (Ty.mutedOption under l)

def Ty.mutedOption (under : Bool) : Option Ty → Option Ty
  | none => none
  | some t => some (t.muted under)

def Ty.mutedList (under : Bool) : List Ty → List Ty
  | [] => []
  | t :: ts => t.muted under :: Ty.mutedList under ts

def ClassTy.muted (under : Bool) : ClassTy → ClassTy
  | ⟨i, m, n, o, as⟩ => ⟨i, m.muted under, n, ClassTy.mutedOuter o, Ty.mutedList under as⟩

def ClassTy.mutedOuter : Option ClassTy → Option ClassTy
  | none => none
  | some c => some (c.muted true)

end

mutual

/-- The arguments of all outer class types that stand in the text of a type. -/
def Ty.outerArguments : Ty → List Ty
  | .array _ _ _ c => c.outerArguments
  | .cls c => c.outerArguments
  | .lambda _ _ c => c.outerArguments
  | .wildcard _ _ _ (some lower) => lower.outerArguments
  | .wildcard _ _ (some upper) none => if upper.isObject then [] else upper.outerArguments
  | _ => []

def Ty.outerArgumentsList : List Ty → List Ty
  | [] => []
  | t :: ts => t.outerArguments ++ Ty.outerArgumentsList ts

def ClassTy.outerArguments : ClassTy → List Ty
  | ⟨_, _, _, o, as⟩ => ClassTy.argumentsAsOuter o ++ Ty.outerArgumentsList as

/-- The same for a class type that is an outer one, so that its own arguments count. -/
def ClassTy.argumentsAsOuter : Option ClassTy → List Ty
  | none => []
  | some ⟨_, _, _, o, as⟩ => ClassTy.argumentsAsOuter o ++ (as ++ Ty.outerArgumentsList as)

end

section Parts

variable (o : RenderOptions) (under : Bool)

theorem Ty.markedArgs_eq (ts : List Ty) : Ty.markedArgs o ts = ts.map (Ty.markedText o) := by
  induction ts with
  | nil => rfl
  | cons t ts ih => rw [Ty.markedArgs, ih, List.map_cons]

theorem Ty.mutedList_eq (ts : List Ty) : Ty.mutedList under ts = ts.map (Ty.muted under) := by
  induction ts with
  | nil => rfl
  | cons t ts ih => rw [Ty.mutedList, ih, List.map_cons]

theorem Ty.outerArgumentsList_eq (ts : List Ty) :
    Ty.outerArgumentsList ts = ts.flatMap Ty.outerArguments := by
  induction ts with
  | nil => rfl
  | cons t ts ih => rw [Ty.outerArgumentsList, ih, List.flatMap_cons]

theorem ClassTy.name_muted (c : ClassTy) : (c.muted under).name = c.name := by
  obtain ⟨i, m, n, outer, as⟩ := c
  rfl

theorem ClassTy.mods_muted (c : ClassTy) : (c.muted under).mods = c.mods.muted under := by
  obtain ⟨i, m, n, outer, as⟩ := c
  rfl

theorem RenderOptions.annotationText_muted (m : TypeModifiers) :
    o.annotationText (m.muted under) = o.annotationText m := by
  cases under <;> rfl

theorem ClassTy.simpleName_muted (c : ClassTy) : (c.muted under).simpleName = c.simpleName := by
  obtain ⟨i, m, n, outer, as⟩ := c
  cases outer with
  | none => rfl
  | some c =>
    rw [ClassTy.muted, ClassTy.mutedOuter, ClassTy.simpleName, ClassTy.simpleName, Option.bind_some,
      Option.bind_some, ClassTy.name_muted]

theorem Ty.isObject_muted (t : Ty) : (t.muted under).isObject = t.isObject := by
  cases t with
  | cls c => exact congrArg (· == objectName) (c.name_muted under)
  | lambda s r c => exact congrArg (· == objectName) (c.name_muted under)
  | _ => rfl

end Parts

namespace ClassTy

/-- The text of a class type without its own mark, given the texts of its outer class type and of
its arguments. -/
def textAround (o : RenderOptions) (c : ClassTy) (outerText : ClassTy → String)
    (argText : Ty → String) : String :=
  (match c.outer with
    | some d => outerText d ++ "." ++ o.annotationText c.mods ++ c.simpleName
    | none => o.annotationText c.mods ++ c.name) ++
    RenderOptions.argumentText (c.args.map argText)

theorem markedName_eq (o : RenderOptions) (c : ClassTy) :
    c.markedName o = c.textAround o (markedName o) (Ty.markedText o) := by
  obtain ⟨i, m, n, outer, as⟩ := c
  rw [markedName, textAround, Ty.markedArgs_eq]
  cases outer <;> rfl

theorem markedName_muted (o : RenderOptions) (under : Bool) (c : ClassTy) :
    (c.muted under).markedName o =
      c.textAround o (fun d => (d.muted true).markedName o)
        fun a => (a.muted under).markedText o := by
  rw [markedName_eq, textAround, textAround, name_muted, mods_muted, simpleName_muted,
    RenderOptions.annotationText_muted]
  obtain ⟨i, m, n, outer, as⟩ := c
  rw [muted, Ty.mutedList_eq, List.map_map]
  cases outer <;> rfl

end ClassTy

/-- The options with which a type is written, under an outer class type or not. -/
def RenderOptions.beneath (under : Bool) (o : RenderOptions) : RenderOptions :=
  if under then o.forOuter else o

section Render

variable {o : RenderOptions} (under : Bool) (m : TypeModifiers)

theorem RenderOptions.annotationText_beneath :
    (o.beneath under).annotationText m = o.annotationText m := by
  cases under <;> rfl

theorem RenderOptions.forOuter_beneath : (o.beneath under).forOuter = o.beneath true := by
  cases under <;> rfl

theorem RenderOptions.erased_beneath (herased : o.erased = false) :
    (o.beneath under).erased = false := by
  cases under <;> exact herased

theorem RenderOptions.markText_beneath (hmarks : o.nullMarks = true) (herased : o.erased = false) :
    (o.beneath under).markText m = (m.muted under).nullability.suffix := by
  cases under with
  | false => simp [beneath, markText, TypeModifiers.muted, hmarks, herased]
  | true => rfl

/-- A type is written as its marked text, muted under outer class types. -/
theorem Ty.render_beneath (hmarks : o.nullMarks = true) (herased : o.erased = false) :
    (∀ (t : Ty) (under : Bool), t.render (o.beneath under) = (t.muted under).markedText o) ∧
      ∀ (c : ClassTy) (under : Bool), c.render (o.beneath under) =
        (c.muted under).markedName o ++ (c.mods.muted under).nullability.suffix := by
  apply Ty.induct
  case primitive =>
    intro i m k under
    rw [Ty.render, Ty.muted, Ty.markedText, RenderOptions.annotationText_beneath,
      RenderOptions.annotationText_muted]
  case array =>
    intro i m v c ih under
    rw [Ty.render, Ty.muted, Ty.markedText, ih, RenderOptions.annotationText_beneath,
      RenderOptions.annotationText_muted, RenderOptions.markText_beneath under m hmarks herased,
      RenderOptions.erased_beneath under herased, Bool.not_false, Bool.and_true]
  case cls =>
    intro c ih under
    rw [Ty.render, Ty.muted, Ty.markedText, ih, ClassTy.mods_muted]
  case lambda =>
    intro s r c ih under
    rw [Ty.render, Ty.muted, Ty.markedText, ih, ClassTy.mods_muted]
  case var =>
    intro v under
    rw [Ty.render, Ty.muted, Ty.markedText, RenderOptions.annotationText_beneath,
      RenderOptions.annotationText_muted,
      RenderOptions.markText_beneath under v.mods hmarks herased]
  case wildcard =>
    intro i m u l hu hl under
    rcases l with _ | lower
    · rcases u with _ | upper
      · rfl
      · rw [Ty.render, Ty.muted, Ty.mutedOption, Ty.mutedOption, Ty.markedText, Ty.isObject_muted,
          hu upper rfl]
    · exact congrArg ("? super " ++ ·) (hl lower rfl under)
  case mk =>
    intro i m n outer as houter has under
    have hargs : as.map (Ty.render (o.beneath under)) =
        as.map fun a => (a.muted under).markedText o :=
      List.map_congr_left fun t ht => has t ht under
    rw [ClassTy.markedName_muted, ClassTy.textAround, ClassTy.render, Ty.renderArgs_eq, hargs,
      RenderOptions.erased_beneath under herased, if_neg Bool.false_ne_true,
      RenderOptions.annotationText_beneath, RenderOptions.markText_beneath under m hmarks herased]
    cases outer with
    | none => rfl
    | some c =>
      have hc : c.render (o.beneath true) = (c.muted true).markedName o :=
        (houter c rfl true).trans String.append_empty
      rw [ClassTy.renderOuter, RenderOptions.forOuter_beneath, hc]

end Render

theorem Text.WholeIff.textAround (o : RenderOptions) (c : ClassTy) {p : ClassTy → Prop}
    {r : Ty → Prop} {f f' : ClassTy → String} {g g' : Ty → String}
    (houter : ∀ d ∈ c.outer, WholeIff (p d) (f d) (f' d))
    (hargs : ∀ a ∈ c.args, WholeIff (r a) (g a) (g' a)) :
    WholeIff ((∀ d ∈ c.outer, p d) ∧ ∀ a ∈ c.args, r a) (c.textAround o f g)
      (c.textAround o f' g') := by
  refine WholeIff.append ?_ (.argumentText hargs)
  cases hc : c.outer with
  | none => exact ⟨.refl _, by simp⟩
  | some d =>
    have hd := ((houter d hc).append_same ".").append_same (o.annotationText c.mods)
    simpa using hd.append_same c.simpleName

/-- None of the types has a mark to lose. -/
def Ty.LoseNoMark (o : RenderOptions) (ts : List Ty) : Prop :=
  ∀ t ∈ ts, (t.muted true).markedText o = (t.muted false).markedText o

theorem Ty.loseNoMark_outerArgumentsList (o : RenderOptions) (ts : List Ty) :
    LoseNoMark o (outerArgumentsList ts) ↔ ∀ t ∈ ts, LoseNoMark o t.outerArguments := by
  rw [outerArgumentsList_eq]
  exact List.forall_mem_flatMap

theorem ClassTy.loseNoMark_outer (o : RenderOptions) (outer : Option ClassTy) :
    Ty.LoseNoMark o (argumentsAsOuter outer) ↔
      ∀ d ∈ outer, Ty.LoseNoMark o (argumentsAsOuter (some d)) := by
  cases outer <;> simp [argumentsAsOuter, Ty.LoseNoMark]

theorem ClassTy.loseNoMark_outerArguments (o : RenderOptions) (c : ClassTy) :
    Ty.LoseNoMark o c.outerArguments ↔
      (∀ d ∈ c.outer, Ty.LoseNoMark o (argumentsAsOuter (some d))) ∧
        ∀ a ∈ c.args, Ty.LoseNoMark o a.outerArguments := by
  obtain ⟨i, m, n, outer, as⟩ := c
  rw [outerArguments, ← Ty.loseNoMark_outerArgumentsList, ← loseNoMark_outer]
  exact List.forall_mem_append

theorem ClassTy.loseNoMark_argumentsAsOuter (o : RenderOptions) (c : ClassTy) :
    Ty.LoseNoMark o (argumentsAsOuter (some c)) ↔
      (∀ d ∈ c.outer, Ty.LoseNoMark o (argumentsAsOuter (some d))) ∧
        ∀ a ∈ c.args, (a.muted true).markedText o = (a.muted false).markedText o ∧
          Ty.LoseNoMark o a.outerArguments := by
  obtain ⟨i, m, n, outer, as⟩ := c
  rw [argumentsAsOuter, forall₂_and, ← Ty.loseNoMark_outerArgumentsList, ← loseNoMark_outer]
  exact List.forall_mem_append.trans (and_congr_right fun _ => List.forall_mem_append)

/-- Muting leaves out characters. Under outer class types it leaves out none exactly if no argument
there has a mark to lose. -/
theorem Ty.wholeIff_muted (o : RenderOptions) :
    (∀ t : Ty,
      Text.Thins ((t.muted true).markedText o) ((t.muted false).markedText o) ∧
      Text.WholeIff (LoseNoMark o t.outerArguments) ((t.muted false).markedText o)
        (t.markedText o)) ∧
    ∀ c : ClassTy,
      Text.Thins ((c.muted true).markedName o) ((c.muted false).markedName o) ∧
      Text.WholeIff (LoseNoMark o c.outerArguments) ((c.muted false).markedName o)
        (c.markedName o) ∧
      Text.WholeIff (LoseNoMark o (ClassTy.argumentsAsOuter (some c)))
        ((c.muted true).markedName o) (c.markedName o) := by
  have hnone : ∀ s, Text.WholeIff (LoseNoMark o []) s s := by
    intro s
    exact ⟨.refl s, by simp [LoseNoMark]⟩
  have hmark : ∀ m : TypeModifiers, Text.Thins (m.muted true).nullability.suffix
      (m.muted false).nullability.suffix := fun m => List.nil_sublist _
  apply Ty.induct
  case primitive =>
    intro i m k
    exact ⟨.refl _, hnone _⟩
  case array =>
    intro i m v c ih
    refine ⟨?_, ?_⟩
    · exact ((ih.1.append (.refl _)).append (.refl _)).append (hmark m)
    · exact ((ih.2.append_same _).append_same _).append_same _
  case cls =>
    intro c ih
    simp only [Ty.muted, Ty.markedText, ClassTy.mods_muted]
    exact ⟨ih.1.append (hmark c.mods), ih.2.1.append_same _⟩
  case lambda =>
    intro s r c ih
    simp only [Ty.muted, Ty.markedText, ClassTy.mods_muted]
    exact ⟨ih.1.append (hmark c.mods), ih.2.1.append_same _⟩
  case var =>
    intro v
    exact ⟨(Text.Thins.refl _).append (hmark v.mods), hnone _⟩
  case wildcard =>
    intro i m u l hu hl
    rcases l with _ | lower
    · rcases u with _ | upper
      · exact ⟨.refl _, hnone _⟩
      · obtain ⟨hthins, hwhole⟩ := hu upper rfl
        simp only [Ty.muted, Ty.mutedOption, Ty.markedText, Ty.isObject_muted, Ty.outerArguments]
        split_ifs
        · exact ⟨.refl _, hnone _⟩
        · exact ⟨(Text.Thins.refl _).append hthins, hwhole.same_append _⟩
    · obtain ⟨hthins, hwhole⟩ := hl lower rfl
      exact ⟨(Text.Thins.refl _).append hthins, hwhole.same_append _⟩
  case mk =>
    intro i m n outer as houter has
    have hcomplete : ∀ d ∈ outer, Text.WholeIff (LoseNoMark o (ClassTy.argumentsAsOuter (some d)))
        ((d.muted true).markedName o) (d.markedName o) := fun d hd => (houter d hd).2.2
    rw [ClassTy.markedName_muted, ClassTy.markedName_muted, ClassTy.markedName_eq,
      ClassTy.loseNoMark_outerArguments, ClassTy.loseNoMark_argumentsAsOuter]
    refine ⟨?_, ?_, ?_⟩
    · exact (Text.WholeIff.textAround o ⟨i, m, n, outer, as⟩
        (fun d _ => ⟨.refl _, Iff.rfl⟩) fun a ha => ⟨(has a ha).1, Iff.rfl⟩).thins
    · exact .textAround o ⟨i, m, n, outer, as⟩ hcomplete fun a ha => (has a ha).2
    · refine .textAround o ⟨i, m, n, outer, as⟩ hcomplete fun a ha => ?_
      -- What is left out of the fully muted text cannot be made up for by what the other keeps.
      obtain ⟨hthins, hwhole⟩ := has a ha
      refine ⟨hthins.trans hwhole.thins, ?_⟩
      rw [← hwhole.eq_iff]
      constructor
      · intro h
        have h' : (a.muted true).markedText o = (a.muted false).markedText o :=
          hthins.antisymm (h ▸ hwhole.thins)
        exact ⟨h', h'.symm.trans h⟩
      · rintro ⟨h, h'⟩
        exact h.trans h'

/-- A type is written as the marked text of the tree that is muted under its outer class types. That
is its own marked text exactly if every argument of an outer class type in it is written, with the
same options and by itself, as it is written without marks. -/
theorem Ty.render_eq_markedText_iff (o : RenderOptions) (hmarks : o.nullMarks = true)
    (herased : o.erased = false) (t : Ty) :
    t.render o = (t.muted false).markedText o ∧
      (t.render o = t.markedText o ↔ ∀ a ∈ t.outerArguments, a.render o.forOuter = a.render o) := by
  have hrender := (render_beneath hmarks herased).1
  have hown : ∀ t : Ty, t.render o = (t.muted false).markedText o := fun t => hrender t false
  have hunder : ∀ t : Ty, t.render o.forOuter = (t.muted true).markedText o :=
    fun t => hrender t true
  refine ⟨hown t, ?_⟩
  simp only [hown, hunder]
  exact ((wholeIff_muted o).1 t).2.eq_iff

/-- The class type `p.Outer<a>.Inner`, of unknown nullability. -/
def Ty.inGenericOuter (a : Ty) : Ty :=
  .cls ⟨{}, {}, "p.Outer.Inner", some ⟨{}, {}, "p.Outer", none, [a]⟩, []⟩

theorem Ty.render_eq_markedText_iff_nonNull :
    let o : RenderOptions := { nullMarks := true }
    let t := inGenericOuter (.var { mods := { nullability := .nonNull }, name := "T" })
    o.nullMarks = true ∧ o.erased = false ∧ t.render o = t.markedText o := by
  intro o t
  have h := render_eq_markedText_iff o rfl rfl t
  refine ⟨rfl, rfl, h.2.mpr ?_⟩
  decide

/-- The argument of an outer class type loses the mark that it has by itself. -/
theorem Ty.render_inGenericOuter :
    let o : RenderOptions := { nullMarks := true }
    let a : Ty := .var { name := "T" }
    a.render o = "T!" ∧ (inGenericOuter a).render o = "p.Outer<T>.Inner!" ∧
      (inGenericOuter a).markedText o = "p.Outer<T!>.Inner!" ∧
      (inGenericOuter a).render o ≠ (inGenericOuter a).markedText o := by
  decide

end ApiSurface
