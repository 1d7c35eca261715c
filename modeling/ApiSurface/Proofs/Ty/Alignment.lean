import ApiSurface.Proofs.Ty.Renaming

/-!
Types that are written alike in two codebases.

Aligned types may differ in the names of their variables, as far as a renaming relates them, in
annotations and marks, in whether an array is written with dots, and in all type arguments. Erasure
sees none of this, except for a variable that a wildcard shows.
-/

namespace ApiSurface

/-- Uses of the same class inside the same outer classes. -/
inductive ClassTy.Aligned : ClassTy → ClassTy → Prop where
  | topLevel {i i' : Ident} {m m' : TypeModifiers} {name : String} {as as' : List Ty} :
      Aligned ⟨i, m, name, none, as⟩ ⟨i', m', name, none, as'⟩
  | inner {i i' : Ident} {m m' : TypeModifiers} {name : String} {o o' : ClassTy} {as as' : List Ty}
      (outer : Aligned o o') : Aligned ⟨i, m, name, some o, as⟩ ⟨i', m', name, some o', as'⟩

/-- Types of which the second is the first after a renaming of variables, with any other annotations,
marks, dots and type arguments. The renaming takes `x` to `y` where `ρ x y`. -/
inductive Ty.Aligned (ρ : String → String → Prop) : Ty → Ty → Prop where
  | primitive {i i' : Ident} {m m' : TypeModifiers} {k : Primitive} :
      Aligned ρ (.primitive i m k) (.primitive i' m' k)
  | array {i i' : Ident} {m m' : TypeModifiers} {v v' : Bool} {c c' : Ty}
      (component : Aligned ρ c c') : Aligned ρ (.array i m v c) (.array i' m' v' c')
  | cls {c c' : ClassTy} (cls : c.Aligned c') : Aligned ρ (.cls c) (.cls c')
  | lambda {s r : Bool} {c c' : ClassTy} (cls : c.Aligned c') :
      Aligned ρ (.lambda s r c) (.lambda s r c')
  | var {v v' : Variable} (renamed : ρ v.name v'.name) : Aligned ρ (.var v) (.var v')
  | wildcard {i i' : Ident} {m m' : TypeModifiers} {u u' l l' : Option Ty}
      (upper : Option.Rel (Aligned ρ) u u') (lower : Option.Rel (Aligned ρ) l l') :
      Aligned ρ (.wildcard i m u l) (.wildcard i' m' u' l')

namespace ClassTy.Aligned

theorem name {c c' : ClassTy} (h : c.Aligned c') : c.name = c'.name := by
  cases h <;> rfl

/-- Erased texts of aligned class types are equal, whatever else is asked for. -/
theorem render_of_erased {c c' : ClassTy} (h : c.Aligned c') {o o' : RenderOptions}
    (ho : o.erased = true) (ho' : o'.erased = true) : c.render o = c'.render o' := by
  induction h generalizing o o' with
  | topLevel => rw [ClassTy.render_of_erased ho, ClassTy.render_of_erased ho']
  | @inner i i' m m' name a a' as as' outer ih =>
    have hsimple : simpleName ⟨i, m, name, some a, as⟩ = simpleName ⟨i', m', name, some a', as'⟩ := by
      simp only [simpleName, Option.bind_some, outer.name]
    have houter : a.render o.forOuter = a'.render o'.forOuter := ih ho ho'
    rw [ClassTy.render_of_erased ho, ClassTy.render_of_erased ho', hsimple]
    exact congrArg (· ++ "." ++ _) houter

end ClassTy.Aligned

namespace Ty

/-- Whether the type under all array layers is a wildcard. -/
def endsInWildcard : Ty → Bool
  | wildcard .. => true
  | array _ _ _ c => c.endsInWildcard
  | _ => false

variable {ρ : String → String → Prop}

/-- Aligned types erase alike if the variables at their heads do. -/
theorem Aligned.eraseHead {t t' : Ty} (h : t.Aligned ρ t') (hplain : t.endsInWildcard = false)
    {onVar onVar' : String → String} (hvar : ∀ x y, ρ x y → onVar x = onVar' y) :
    t.eraseHead onVar = t'.eraseHead onVar' := by
  induction t using induct_child generalizing t' with
  | node t ih =>
    cases h with
    | primitive => exact (erasedText_primitive ..).trans (erasedText_primitive ..).symm
    | array component =>
      rw [Ty.eraseHead, Ty.eraseHead, ih 0 _ rfl component hplain]
    | cls cls => exact cls.render_of_erased rfl rfl
    | lambda cls => exact cls.render_of_erased rfl rfl
    | var renamed => exact hvar _ _ renamed
    | wildcard => cases hplain

/-- First bounds in two scopes: bounds of variables that are renamed into each other are aligned, and
no bound is a wildcard. -/
def BoundsAligned (ρ : String → String → Prop) (boundOf boundOf' : String → Option Ty) : Prop :=
  ∀ x y, ρ x y →
    Option.Rel (fun b b' => b.Aligned ρ b' ∧ b.endsInWildcard = false) (boundOf x) (boundOf' y)

/-- Variables that are renamed into each other erase alike, however many bounds are followed. -/
theorem BoundsAligned.eraseVar {boundOf boundOf' : String → Option Ty}
    (h : BoundsAligned ρ boundOf boundOf') (n : Nat) {x y : String} (hxy : ρ x y) :
    Ty.eraseVar boundOf n x = Ty.eraseVar boundOf' n y := by
  induction n generalizing x y with
  | zero => rfl
  | succ n ih =>
    have hbounds := h x y hxy
    rw [Ty.eraseVar, Ty.eraseVar]
    generalize boundOf x = b, boundOf' y = b' at hbounds ⊢
    cases hbounds with
    | none => rfl
    | some hb => exact hb.1.eraseHead hb.2 fun _ _ => ih

theorem BoundsAligned.erasedWith {boundOf boundOf' : String → Option Ty}
    (h : BoundsAligned ρ boundOf boundOf') {t t' : Ty} (ht : t.Aligned ρ t')
    (hplain : t.endsInWildcard = false) : t.erasedWith boundOf = t'.erasedWith boundOf' :=
  ht.eraseHead hplain fun _ _ => h.eraseVar maxBounds

end Ty

end ApiSurface
