import ApiSurface.Proofs.Ty.Sharing
import ApiSurface.Ty.Erasure
import ApiSurface.Ty.Event

/-!
Renaming the variables of a type.

An erased text has room for one variable at most: the one under all array layers, or the one that a
wildcard shows. Everything else in it stays when variables are renamed.
-/

namespace ApiSurface

def renameOne (x y : String) (name : String) : String := if name = x then y else name

theorem renameOne_self (x y : String) : renameOne x y x = y := if_pos rfl

theorem renameOne_of_ne {x y v : String} (hv : v ≠ x) : renameOne x y v = v := if_neg hv

/-- No two names other than `y` become equal. -/
theorem renameOne_eq_iff {x y u v : String} (hu : u ≠ y) (hv : v ≠ y) :
    renameOne x y u = renameOne x y v ↔ u = v := by
  by_cases hux : u = x <;> by_cases hvx : v = x
  · exact iff_of_true (by rw [hux, hvx]) (by rw [hux, hvx])
  · rw [hux, renameOne_self, renameOne_of_ne hvx]
    exact iff_of_false hv.symm (Ne.symm hvx)
  · rw [hvx, renameOne_self, renameOne_of_ne hux]
    exact iff_of_false hu hux
  · rw [renameOne_of_ne hux, renameOne_of_ne hvx]

def Editor.renamer (ρ : String → String) : Editor :=
  ofHooks (fun _ m => m) fun _ v => some (.var { v with name := ρ v.name })

theorem Editor.thorough_renamer (ρ : String → String) : (renamer ρ).Thorough :=
  thorough_ofHooks _ _

/-- The type with other names for its variables; new nodes are made at `p`. -/
def Ty.rename (ρ : String → String) (p : Ident) (t : Ty) : Ty := (Editor.renamer ρ).edit p t

def ClassTy.rename (ρ : String → String) (p : Ident) (c : ClassTy) : ClassTy :=
  (Editor.renamer ρ).rebuild p c

namespace ClassTy

variable (ρ : String → String) (p : Ident)

theorem name_rename (c : ClassTy) : (c.rename ρ p).name = c.name := by
  obtain ⟨i, m, n, o, as⟩ := c
  rw [rename, (Editor.thorough_renamer ρ).rebuild]

theorem outer_rename (c : ClassTy) :
    (c.rename ρ p).outer = c.outer.map (rename ρ (p.child 0)) := by
  obtain ⟨i, m, n, o, as⟩ := c
  rw [rename, (Editor.thorough_renamer ρ).rebuild]
  rfl

theorem simpleName_rename (c : ClassTy) : (c.rename ρ p).simpleName = c.simpleName :=
  (Editor.thorough_renamer ρ).simpleName_rebuild p c

/-- The erased text of a class type names it and its outer types and no variable. -/
theorem render_of_erased {o : RenderOptions} (ho : o.erased = true) (c : ClassTy) :
    c.render o = match c.outer with
      | some outer => outer.render o.forOuter ++ "." ++ c.simpleName
      | none => c.name := by
  obtain ⟨i, m, n, outer, as⟩ := c
  rw [render, o.annotationText_of_erased ho, o.markText_of_erased ho, if_pos ho]
  cases outer with
  | none => simp [renderOuter]
  | some outer => simp [renderOuter]

theorem render_rename (c : ClassTy) : (c.rename ρ p).render .erasure = c.render .erasure := by
  have h := (Ty.induct (P := fun _ => True)
    (Q := fun c => ∀ p, (c.rename ρ p).render .erasure = c.render .erasure)
    (fun _ _ _ => trivial) (fun _ _ _ _ _ => trivial) (fun _ _ => trivial) (fun _ _ _ _ => trivial)
    (fun _ => trivial) (fun _ _ _ _ _ _ => trivial) ?_).2
  · exact h c p
  · intro i m n o as ho _ p
    rw [render_of_erased rfl, render_of_erased rfl, outer_rename, simpleName_rename, name_rename]
    cases o with
    | none => rfl
    | some o => exact congrArg (· ++ "." ++ _) (ho o rfl (p.child 0))

end ClassTy

namespace Ty

/-- The names of the variables in a type. -/
def variableNames (t : Ty) : List String :=
  t.events.filterMap fun
    | .var _ name => some name
    | _ => none

/-- The variable under all array layers. -/
def headVariable? : Ty → Option String
  | var v => some v.name
  | array _ _ _ c => c.headVariable?
  | _ => none

/-- The array layers over the head, as an erased text shows them. -/
def arraySuffix : Ty → String
  | array _ _ _ c => c.arraySuffix ++ "[]"
  | _ => ""

/-- The variable whose name stands in the erased text. -/
def shownVariable? : Ty → Option String
  | var v => some v.name
  | array _ _ _ c => c.shownVariable?
  | wildcard _ _ _ (some lower) => lower.shownVariable?
  | wildcard _ _ (some upper) none => if upper.isObject then none else upper.shownVariable?
  | _ => none

theorem headVariable?_mem {t : Ty} {v : String} (hv : t.headVariable? = some v) :
    v ∈ t.variableNames := by
  induction t using induct_child with
  | node t ih =>
    cases t with
    | array i m b c =>
      have hc := ih 0 c rfl hv
      rw [variableNames, events, List.filterMap_cons_none rfl, List.filterMap_cons_none rfl]
      exact hc
    | var w =>
      obtain rfl := Option.some.inj hv
      exact List.mem_singleton.mpr rfl
    | _ => cases hv

theorem ne_of_headVariable? {t : Ty} {v y : String} (hv : t.headVariable? = some v)
    (hy : y ∉ t.variableNames) : v ≠ y := by
  rintro rfl
  exact hy (headVariable?_mem hv)

section

variable (i : Ident) (m : TypeModifiers)

theorem erasedText_primitive (k : Primitive) : (primitive i m k).erasedText = k.keyword := by
  show "" ++ k.keyword = k.keyword
  exact String.empty_append

theorem erasedText_array (v : Bool) (c : Ty) :
    (array i m v c).erasedText = c.erasedText ++ "[]" := by
  have hlayer : (if v && !RenderOptions.erasure.erased then "..." else "[]") = "[]" := by
    cases v <;> rfl
  show c.erasedText ++ "" ++ (if v && !RenderOptions.erasure.erased then "..." else "[]") ++ "" = _
  rw [hlayer, String.append_empty, String.append_empty]

theorem erasedText_cls (c : ClassTy) : (cls c).erasedText = c.render .erasure := rfl

theorem erasedText_lambda (s r : Bool) (c : ClassTy) :
    (lambda s r c).erasedText = c.render .erasure := rfl

theorem erasedText_var (v : Variable) : (var v).erasedText = v.name := by
  show "" ++ v.name ++ "" = v.name
  rw [String.append_empty, String.empty_append]

theorem erasedText_super (u : Option Ty) (l : Ty) :
    (wildcard i m u (some l)).erasedText = "? super " ++ l.erasedText := rfl

theorem erasedText_extends (u : Ty) :
    (wildcard i m (some u) none).erasedText =
      if u.isObject then "?" else "? extends " ++ u.erasedText := rfl

theorem erasedText_unbounded : (wildcard i m none none).erasedText = "?" := rfl

end

section

variable (ρ : String → String) (p : Ident)

theorem rename_primitive (i m k) : rename ρ p (.primitive i m k) = .primitive i m k := by
  rw [rename, (Editor.thorough_renamer ρ).edit_primitive]
  exact congrArg (primitive · m k) (if_pos rfl)

theorem rename_array (i m v c) :
    ∃ j, rename ρ p (.array i m v c) = .array j m v (c.rename ρ (p.child 0)) :=
  ⟨_, (Editor.thorough_renamer ρ).edit_array ..⟩

theorem rename_cls (c : ClassTy) : rename ρ p (.cls c) = .cls (c.rename ρ p) :=
  (Editor.thorough_renamer ρ).edit_cls p c

theorem rename_lambda (s r) (c : ClassTy) :
    rename ρ p (.lambda s r c) = .lambda s r (c.rename ρ p) :=
  (Editor.thorough_renamer ρ).edit_lambda p s r c

theorem rename_var (v : Variable) :
    rename ρ p (.var v) = .var { v with name := ρ v.name } := by
  rw [rename, Editor.edit]
  rfl

theorem rename_wildcard (i m u l) :
    ∃ j, rename ρ p (.wildcard i m u l) =
      .wildcard j m (u.map (rename ρ (p.child 0))) (l.map (rename ρ (p.child 1))) :=
  ⟨_, (Editor.thorough_renamer ρ).edit_wildcard ..⟩

theorem headVariable?_rename (t : Ty) :
    (t.rename ρ p).headVariable? = t.headVariable?.map ρ := by
  induction t using induct_child generalizing p with
  | node t ih =>
    cases t with
    | primitive i m k =>
      rw [rename_primitive]
      rfl
    | array i m v c =>
      obtain ⟨j, hj⟩ := rename_array ρ p i m v c
      rw [hj]
      exact ih 0 c rfl (p.child 0)
    | cls c =>
      rw [rename_cls]
      rfl
    | lambda s r c =>
      rw [rename_lambda]
      rfl
    | var v =>
      rw [rename_var]
      rfl
    | wildcard i m u l =>
      obtain ⟨j, hj⟩ := rename_wildcard ρ p i m u l
      rw [hj]
      rfl

theorem arraySuffix_rename (t : Ty) : (t.rename ρ p).arraySuffix = t.arraySuffix := by
  induction t using induct_child generalizing p with
  | node t ih =>
    cases t with
    | primitive i m k => rw [rename_primitive]
    | array i m v c =>
      obtain ⟨j, hj⟩ := rename_array ρ p i m v c
      rw [hj, arraySuffix, arraySuffix, ih 0 c rfl]
    | cls c =>
      rw [rename_cls]
      rfl
    | lambda s r c =>
      rw [rename_lambda]
      rfl
    | var v =>
      rw [rename_var]
      rfl
    | wildcard i m u l =>
      obtain ⟨j, hj⟩ := rename_wildcard ρ p i m u l
      rw [hj]
      rfl

theorem isObject_rename (t : Ty) : (t.rename ρ p).isObject = t.isObject := by
  by_cases ht : t.kind = .var
  · cases t with
    | var v =>
      rw [rename_var]
      rfl
    | _ => cases ht
  · exact (Editor.thorough_renamer ρ).isObject_edit_eq p ht

end

/-- An erased text is fixed but for the name of the variable that it shows. -/
theorem erasedText_frame (t : Ty) :
    ∃ before after, t.erasedText = before ++ t.shownVariable?.getD "" ++ after ∧
      ∀ ρ p, (t.rename ρ p).erasedText = before ++ t.shownVariable?.elim "" ρ ++ after := by
  induction t using induct_child with
  | node t ih =>
    cases t with
    | primitive i m k =>
      refine ⟨k.keyword, "", ?_, ?_⟩
      · simp [erasedText_primitive, shownVariable?]
      · intro ρ p
        simp [rename_primitive, erasedText_primitive, shownVariable?]
    | array i m v c =>
      obtain ⟨before, after, hc, hrename⟩ := ih 0 c rfl
      refine ⟨before, after ++ "[]", ?_, ?_⟩
      · rw [erasedText_array, hc, shownVariable?, String.append_assoc]
      · intro ρ p
        obtain ⟨j, hj⟩ := rename_array ρ p i m v c
        rw [hj, erasedText_array, hrename, shownVariable?, String.append_assoc]
    | cls c =>
      refine ⟨c.render .erasure, "", ?_, ?_⟩
      · simp [erasedText_cls, shownVariable?]
      · intro ρ p
        simp [rename_cls, erasedText_cls, shownVariable?, ClassTy.render_rename]
    | lambda s r c =>
      refine ⟨c.render .erasure, "", ?_, ?_⟩
      · simp [erasedText_lambda, shownVariable?]
      · intro ρ p
        simp [rename_lambda, erasedText_lambda, shownVariable?, ClassTy.render_rename]
    | var v =>
      refine ⟨"", "", ?_, ?_⟩
      · simp [erasedText_var, shownVariable?]
      · intro ρ p
        simp [rename_var, erasedText_var, shownVariable?]
    | wildcard i m u l =>
      match u, l with
      | u, some l =>
        obtain ⟨before, after, hl, hrename⟩ := ih 1 l rfl
        refine ⟨"? super " ++ before, after, ?_, ?_⟩
        · rw [erasedText_super, hl, shownVariable?]
          simp only [String.append_assoc]
        · intro ρ p
          obtain ⟨j, hj⟩ := rename_wildcard ρ p i m u (some l)
          rw [hj, Option.map_some, erasedText_super, hrename, shownVariable?]
          simp only [String.append_assoc]
      | some u, none =>
        by_cases hu : u.isObject
        · refine ⟨"?", "", ?_, ?_⟩
          · simp [erasedText_extends, shownVariable?, hu]
          · intro ρ p
            obtain ⟨j, hj⟩ := rename_wildcard ρ p i m (some u) none
            simp [hj, erasedText_extends, shownVariable?, isObject_rename, hu]
        · obtain ⟨before, after, htext, hrename⟩ := ih 0 u rfl
          refine ⟨"? extends " ++ before, after, ?_, ?_⟩
          · rw [erasedText_extends, shownVariable?, if_neg hu, if_neg hu, htext]
            simp only [String.append_assoc]
          · intro ρ p
            obtain ⟨j, hj⟩ := rename_wildcard ρ p i m (some u) none
            rw [hj, Option.map_some, Option.map_none, erasedText_extends, isObject_rename,
              shownVariable?, if_neg hu, if_neg hu, hrename]
            simp only [String.append_assoc]
      | none, none =>
        refine ⟨"?", "", ?_, ?_⟩
        · simp [erasedText_unbounded, shownVariable?]
        · intro ρ p
          obtain ⟨j, hj⟩ := rename_wildcard ρ p i m none none
          simp [hj, erasedText_unbounded, shownVariable?]

/-- Renaming keeps the erased text exactly if it keeps the variable shown there. -/
theorem erasedText_rename_eq_iff (ρ : String → String) (p : Ident) (t : Ty) :
    (t.rename ρ p).erasedText = t.erasedText ↔ ∀ v, t.shownVariable? = some v → ρ v = v := by
  obtain ⟨before, after, ht, hrename⟩ := t.erasedText_frame
  rw [ht, hrename, String.append_left_inj, String.append_right_inj]
  cases t.shownVariable? with
  | none => simp
  | some v => simp

theorem eraseHead_of_headVariable? {t : Ty} {v : String} (hv : t.headVariable? = some v)
    (onVar : String → String) : t.eraseHead onVar = onVar v ++ t.arraySuffix := by
  induction t using induct_child with
  | node t ih =>
    cases t with
    | array i m b c => rw [eraseHead, ih 0 c rfl hv, arraySuffix, String.append_assoc]
    | var w =>
      obtain rfl := Option.some.inj hv
      exact String.append_empty.symm
    | _ => cases hv

theorem eraseHead_of_headVariable?_eq_none {t : Ty} (hnone : t.headVariable? = none)
    (onVar : String → String) : t.eraseHead onVar = t.erasedText := by
  induction t using induct_child with
  | node t ih =>
    cases t with
    | array i m b c => rw [eraseHead, ih 0 c rfl hnone, erasedText_array]
    | var w => cases hnone
    | _ => rfl

end Ty

end ApiSurface
