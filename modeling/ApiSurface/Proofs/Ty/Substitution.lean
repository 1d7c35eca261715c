import ApiSurface.Proofs.Ty.Sharing
import ApiSurface.Ty.Plain
import ApiSurface.Ty.Substitution
import Std.Data.TreeMap.Lemmas

/-!
The content of a substituted tree.

Identities decide which nodes a substitution shares and nothing else. `Ty.instantiate` puts
replacements into a tree node by node and looks at no identity, and the content of a substituted
tree is what it makes of the contents. Two substitutions, one after the other, are then one: the
only variables that meet the second one are those that the first leaves or brings in, and a mark
that the first puts on a replacement is the mark that the second puts on what replaces it.
-/

namespace ApiSurface

/-- What replaces a variable by `t`: it is nullable where the variable is marked so. -/
def Variable.marks (v : Variable) (t : Ty) : Ty :=
  if v.mods.nullability = .nullable then t.withNullability {} .nullable else t

mutual

/-- The tree with replacements for the variables that have one. -/
def Ty.instantiate (σ : String → Option Ty) : Ty → Ty
  | .primitive i m k => .primitive i m k
  | .array i m v c => .array i m v (c.instantiate σ)
  | .cls c => .cls (c.instantiate σ)
  | .lambda s r c => .lambda s r (c.instantiate σ)
  | .var v =>
    match σ v.name with
    | some t => v.marks t
    | none => .var v
  | .wildcard i m u l => .wildcard i m (Ty.instantiateOption σ u) (Ty.instantiateOption σ l)

def Ty.instantiateOption (σ : String → Option Ty) : Option Ty → Option Ty
  | none => none
  | some t => some (t.instantiate σ)

def Ty.instantiateList (σ : String → Option Ty) : List Ty → List Ty
  | [] => []
  | t :: ts => t.instantiate σ :: Ty.instantiateList σ ts

def ClassTy.instantiate (σ : String → Option Ty) : ClassTy → ClassTy
  | ⟨i, m, n, o, as⟩ => ⟨i, m, n, ClassTy.instantiateOption σ o, Ty.instantiateList σ as⟩

def ClassTy.instantiateOption (σ : String → Option Ty) : Option ClassTy → Option ClassTy
  | none => none
  | some c => some (c.instantiate σ)

end

section Parts

variable (σ : String → Option Ty)

theorem Ty.instantiateOption_eq (t : Option Ty) :
    Ty.instantiateOption σ t = t.map (Ty.instantiate σ) := by
  cases t <;> rfl

theorem Ty.instantiateList_eq (ts : List Ty) :
    Ty.instantiateList σ ts = ts.map (Ty.instantiate σ) := by
  induction ts with
  | nil => rfl
  | cons t ts ih => rw [Ty.instantiateList, ih, List.map_cons]

theorem ClassTy.instantiateOption_eq (c : Option ClassTy) :
    ClassTy.instantiateOption σ c = c.map (ClassTy.instantiate σ) := by
  cases c <;> rfl

end Parts

/-- Trees without replacements stay as they are. -/
theorem Ty.instantiate_none :
    (∀ t : Ty, t.instantiate (fun _ => none) = t) ∧
      ∀ c : ClassTy, c.instantiate (fun _ => none) = c := by
  apply Ty.induct
  case primitive =>
    intro i m k
    rfl
  case array =>
    intro i m v c ih
    rw [Ty.instantiate, ih]
  case cls =>
    intro c ih
    rw [Ty.instantiate, ih]
  case lambda =>
    intro s r c ih
    rw [Ty.instantiate, ih]
  case var =>
    intro v
    rfl
  case wildcard =>
    intro i m u l hu hl
    rw [Ty.instantiate, Ty.instantiateOption_eq, Ty.instantiateOption_eq, Option.map_congr hu,
      Option.map_congr hl, Option.map_id', Option.map_id']
  case mk =>
    intro i m n o as ho has
    rw [ClassTy.instantiate, ClassTy.instantiateOption_eq, Ty.instantiateList_eq,
      Option.map_congr ho, List.map_congr_left has, Option.map_id', List.map_id']

theorem Ty.withNullability_twice (p q : Ident) (n : Nullability) (t : Ty) :
    (t.withNullability p n).withNullability q n = t.withNullability q n := by
  cases t <;> rfl

theorem Ty.plain_withNullability (p : Ident) (n : Nullability) (t : Ty) :
    (t.withNullability p n).plain = t.plain.withNullability {} n := by
  cases t with
  | cls c =>
    obtain ⟨i, m, name, o, as⟩ := c
    rfl
  | lambda s r c =>
    obtain ⟨i, m, name, o, as⟩ := c
    rfl
  | _ => rfl

/-- A variable that is replaced hands its mark on to the replacement. -/
theorem Variable.instantiate_eq (σ : String → Option Ty) (v : Variable) :
    (Ty.var v).instantiate σ = ((σ v.name).map v.marks).getD (.var v) := by
  rw [Ty.instantiate]
  cases σ v.name <;> rfl

/-- A mark on the root stays there when parts below it are replaced, and goes over to the
replacement when the root is a variable that is replaced itself. -/
theorem Ty.instantiate_withNullability (σ : String → Option Ty) (t : Ty) :
    (t.withNullability {} .nullable).instantiate σ =
      (t.instantiate σ).withNullability {} .nullable := by
  cases t with
  | primitive i m k => rfl
  | array i m v c => rfl
  | cls c =>
    obtain ⟨i, m, n, o, as⟩ := c
    rfl
  | lambda s r c =>
    obtain ⟨i, m, n, o, as⟩ := c
    rfl
  | wildcard i m u l => rfl
  | var v =>
    -- The replacement takes the mark from the marked variable, so it may be put on twice.
    have hmarked : (Ty.var v).withNullability {} .nullable =
        .var { v with id := {}, mods := v.mods.withNullability {} .nullable } := rfl
    rw [hmarked, Variable.instantiate_eq, Variable.instantiate_eq]
    cases σ v.name with
    | none => rfl
    | some t =>
      simp only [Option.map_some, Option.getD_some, Variable.marks, TypeModifiers.withNullability,
        if_true]
      by_cases hv : v.mods.nullability = .nullable
      · rw [if_pos hv, Ty.withNullability_twice]
      · rw [if_neg hv]

theorem Ty.instantiate_marks (σ : String → Option Ty) (v : Variable) (t : Ty) :
    (v.marks t).instantiate σ = v.marks (t.instantiate σ) := by
  rw [Variable.marks, Variable.marks]
  by_cases hv : v.mods.nullability = .nullable
  · rw [if_pos hv, if_pos hv, Ty.instantiate_withNullability]
  · rw [if_neg hv, if_neg hv]

/-- Replacements that are followed by others: those of `σ` with the others put in, and where `σ` has
none the others themselves. -/
def Ty.followedBy (σ τ : String → Option Ty) (x : String) : Option Ty :=
  ((σ x).map (Ty.instantiate τ)).or (τ x)

theorem Ty.instantiate_instantiate (σ τ : String → Option Ty) :
    (∀ t : Ty, (t.instantiate σ).instantiate τ = t.instantiate (Ty.followedBy σ τ)) ∧
      ∀ c : ClassTy, (c.instantiate σ).instantiate τ = c.instantiate (Ty.followedBy σ τ) := by
  apply Ty.induct
  case primitive =>
    intro i m k
    rfl
  case array =>
    intro i m v c ih
    rw [Ty.instantiate, Ty.instantiate, Ty.instantiate, ih]
  case cls =>
    intro c ih
    rw [Ty.instantiate, Ty.instantiate, Ty.instantiate, ih]
  case lambda =>
    intro s r c ih
    rw [Ty.instantiate, Ty.instantiate, Ty.instantiate, ih]
  case var =>
    intro v
    rw [Variable.instantiate_eq σ, Variable.instantiate_eq (Ty.followedBy σ τ), Ty.followedBy]
    cases σ v.name with
    | none => exact Variable.instantiate_eq τ v
    | some t => exact Ty.instantiate_marks τ v t
  case wildcard =>
    intro i m u l hu hl
    simp only [Ty.instantiate, Ty.instantiateOption_eq, Option.map_map, Function.comp_def]
    rw [Option.map_congr hu, Option.map_congr hl]
  case mk =>
    intro i m n o as ho has
    simp only [ClassTy.instantiate, ClassTy.instantiateOption_eq, Ty.instantiateList_eq,
      Option.map_map, List.map_map, Function.comp_def]
    rw [Option.map_congr ho, List.map_congr_left has]

namespace Bindings

theorem thorough_editor (s : Bindings) : s.editor.Thorough where
  keeps _ := rfl
  finish _ _ := rfl

/-- The contents of the replacements. -/
def contents (s : Bindings) (x : String) : Option Ty := s[x]?.map Ty.plain

theorem editVar_eq (s : Bindings) (p : Ident) (v : Variable) :
    s.editor.editVar p v =
      (s[v.name]?.map fun t =>
        if v.mods.nullability = .nullable then t.withNullability p .nullable else t).getD
          (.var v) := by
  have hreplace : s.editor.replace? p v = s[v.name]?.map _ := rfl
  rw [Editor.editVar, hreplace]
  cases s[v.name]? with
  | some t => rfl
  | none => exact if_pos (.inr rfl)

theorem plain_editVar (s : Bindings) (p : Ident) (v : Variable) :
    (s.editor.editVar p v).plain = (Ty.var v).plain.instantiate s.contents := by
  rw [editVar_eq, Ty.plain, Variable.instantiate_eq, contents]
  cases s[v.name]? with
  | none => rfl
  | some t =>
    simp only [Option.map_some, Option.getD_some, Variable.marks, TypeModifiers.plain]
    by_cases hv : v.mods.nullability = .nullable
    · rw [if_pos hv, if_pos hv, Ty.plain_withNullability]
    · rw [if_neg hv, if_neg hv]

theorem plain_edit (s : Bindings) :
    (∀ t p, (s.editor.edit p t).plain = t.plain.instantiate s.contents) ∧
      ∀ c p, (s.editor.rebuild p c).plain = c.plain.instantiate s.contents := by
  have he := s.thorough_editor
  apply Ty.induct
  case primitive =>
    intro i m k p
    rw [he.edit_primitive]
    rfl
  case array =>
    intro i m v c ih p
    rw [he.edit_array, Ty.plain, Ty.plain, Ty.instantiate, ih]
    rfl
  case cls =>
    intro c ih p
    rw [he.edit_cls, Ty.plain, Ty.plain, Ty.instantiate, ih]
  case lambda =>
    intro s r c ih p
    rw [he.edit_lambda, Ty.plain, Ty.plain, Ty.instantiate, ih]
  case var =>
    intro v p
    rw [Editor.edit]
    exact s.plain_editVar p v
  case wildcard =>
    intro i m u l hu hl p
    simp only [he.edit_wildcard, Ty.plain, Ty.instantiate, Ty.plainOption_eq,
      Ty.instantiateOption_eq, Option.map_map, Function.comp_def]
    rw [Option.map_congr fun t ht => hu t ht _, Option.map_congr fun t ht => hl t ht _]
    rfl
  case mk =>
    intro i m n o as ho has p
    have hargs : (s.editor.editArgs p 1 as).map Ty.plain =
        as.map fun t => t.plain.instantiate s.contents := by
      apply List.ext_getElem?
      intro k
      rw [List.getElem?_map, List.getElem?_map, Editor.editArgs, List.getElem?_mapIdx]
      cases hk : as[k]? with
      | none => rfl
      | some t => exact congrArg some (has t (List.mem_of_getElem? hk) _)
    simp only [he.rebuild, ClassTy.plain, ClassTy.instantiate, ClassTy.plainOption_eq,
      Ty.plainList_eq, ClassTy.instantiateOption_eq, Ty.instantiateList_eq, Option.map_map,
      List.map_map, Function.comp_def]
    rw [Option.map_congr fun c hc => ho c hc _, hargs]
    rfl

/-- The content of a substituted tree is that of the tree with the contents of the replacements. -/
theorem plain_substitute (s : Bindings) (p : Ident) (t : Ty) :
    (t.substitute p s).plain = t.plain.instantiate s.contents := by
  rw [Ty.substitute]
  split_ifs with hempty
  · have hnone : s.contents = fun _ => none := by
      funext x
      rw [contents, Std.TreeMap.getElem?_of_isEmpty hempty, Option.map_none]
    rw [hnone, Ty.instantiate_none.1]
  · exact s.plain_edit.1 t p

/-- `s` followed by `r`: what `s` binds is bound to what `r` makes of it, and what only `r` binds is
bound as by `r`. The trees made for the name `x` are made at `place x`. -/
def andThen (place : String → Ident) (s r : Bindings) : Bindings :=
  r ∪ s.map fun x t => t.substitute (place x) r

theorem getElem?_andThen (place : String → Ident) (s r : Bindings) (x : String) :
    (s.andThen place r)[x]? = (s[x]?.map (Ty.substitute (place x) r)).or r[x]? := by
  rw [andThen, Std.TreeMap.getElem?_union, Std.TreeMap.getElem?_map]

theorem contents_andThen (place : String → Ident) (s r : Bindings) :
    (s.andThen place r).contents = Ty.followedBy s.contents r.contents := by
  funext x
  rw [contents, getElem?_andThen, Ty.followedBy, contents, contents]
  cases s[x]? with
  | none => rfl
  | some t => exact congrArg some (r.plain_substitute (place x) t)

end Bindings

/-- Two substitutions, one after the other, are one substitution: that by the bindings of the first
followed by the second. -/
theorem Ty.substitute_andThen (p q p' : Ident) (place : String → Ident) (s r : Bindings) (t : Ty) :
    ((t.substitute p s).substitute q r).alike (t.substitute p' (s.andThen place r)) = true := by
  rw [Ty.alike_iff, r.plain_substitute, s.plain_substitute, Bindings.plain_substitute,
    Bindings.contents_andThen, (Ty.instantiate_instantiate _ _).1]

end ApiSurface
