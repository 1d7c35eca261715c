import ApiSurface.Proofs.Ty.Substitution
import ApiSurface.Ty.Checked

/-!
Types that were made with checks stay as the checks want them.

Edits rebuild lambdas and wildcards from their parts without another check. They need none: the
checks look at the number of arguments of a lambda, which an edit keeps, and at the class that
bounds a wildcard from above, which stays the class that it is. A variable is no such class, so
nothing that replaces a variable takes the place of that bound.
-/

namespace ApiSurface

namespace Ty

/-- Makes the node once more from its parts, with the checks for its kind. -/
def recheck : Ty → Except Error Ty
  | lambda suspend receiver c => newLambda suspend receiver c
  | wildcard i m u l => newWildcard i m u l
  | t => .ok t

/-- A lambda has arguments for all its parts, and a wildcard with two bounds has the root class as
its upper one. -/
def WellMade : Ty → Prop
  | lambda _ receiver c => neededArgs receiver ≤ c.args.length
  | wildcard _ _ (some u) (some _) => u.isObject = true
  | _ => True

/-- All nodes of the tree are well made. -/
def Valid (t : Ty) : Prop := ∀ path s, t.descend path = some s → s.WellMade

theorem recheck_eq_ok_iff {t : Ty} : t.recheck = .ok t ↔ t.WellMade := by
  cases t with
  | lambda suspend receiver c =>
    by_cases hlt : c.args.length < neededArgs receiver
    · simp [recheck, newLambda, WellMade, hlt]
    · simp [recheck, newLambda, WellMade, hlt, Nat.le_of_not_lt hlt]
  | wildcard i m u l =>
    rcases u with _ | u
    · exact iff_of_true rfl trivial
    · rcases l with _ | l
      · exact iff_of_true rfl trivial
      · cases hobject : u.isObject <;> simp [recheck, newWildcard, WellMade, hobject]
  | _ => exact iff_of_true rfl trivial

theorem valid_iff {t : Ty} :
    t.Valid ↔ t.WellMade ∧ ∀ k c, t.child? k = some c → c.Valid := by
  constructor
  · intro h
    refine ⟨h [] t rfl, fun k c hc path s hs => ?_⟩
    exact h (k :: path) s (descend_cons_eq_some_iff.mpr ⟨c, hc, hs⟩)
  · rintro ⟨hnode, hparts⟩ path s hs
    cases path with
    | nil =>
      obtain rfl := Option.some.inj hs
      exact hnode
    | cons k ks =>
      obtain ⟨c, hc, hs⟩ := descend_cons_eq_some_iff.mp hs
      exact hparts k c hc ks s hs

theorem valid_var (v : Variable) : (var v).Valid :=
  valid_iff.mpr ⟨trivial, fun _ _ hc => nomatch hc⟩

/-- Modifiers are no matter of validity. -/
theorem valid_withModifiers_iff (p : Ident) (m : TypeModifiers) (t : Ty) :
    (t.withModifiers p m).Valid ↔ t.Valid := by
  have hnode : (t.withModifiers p m).WellMade ↔ t.WellMade := by
    cases t with
    | wildcard i n u l => rcases u with _ | u <;> rcases l with _ | l <;> rfl
    | _ => rfl
  rw [valid_iff, valid_iff (t := t), hnode]
  simp only [child?_withModifiers]

end Ty

namespace Editor.Thorough

variable {e : Editor} (he : e.Thorough)
include he

/-- A class or a lambda keeps its name in an edit, so the root class stays the root class. -/
theorem isObject_edit (p : Ident) {t : Ty} (h : t.isObject = true) :
    (e.edit p t).isObject = true := by
  have ht : t.kind ≠ .var := by
    intro hvar
    cases t with
    | var v => cases h
    | _ => cases hvar
  rw [he.isObject_edit_eq p ht, h]

theorem length_args_rebuild (p : Ident) (c : ClassTy) :
    (e.rebuild p c).args.length = c.args.length := by
  obtain ⟨i, m, n, o, as⟩ := c
  rw [he.rebuild]
  exact List.length_mapIdx

theorem wellMade_edit (p : Ident) {t : Ty} (ht : t.kind ≠ .var) (h : t.WellMade) :
    (e.edit p t).WellMade := by
  cases t with
  | primitive i m k =>
    rw [he.edit_primitive]
    trivial
  | array i m v c =>
    rw [he.edit_array]
    trivial
  | cls c =>
    rw [he.edit_cls]
    trivial
  | lambda suspend receiver c =>
    rw [he.edit_lambda, Ty.WellMade, he.length_args_rebuild]
    exact h
  | var v => exact absurd rfl ht
  | wildcard i m u l =>
    rw [he.edit_wildcard]
    rcases u with _ | u
    · trivial
    · rcases l with _ | l
      · trivial
      · exact he.isObject_edit _ h

/-- An edit that puts valid trees in the place of variables keeps trees valid. -/
theorem valid_edit (hvar : ∀ p v, (e.editVar p v).Valid) (p : Ident) {t : Ty} (ht : t.Valid) :
    (e.edit p t).Valid := by
  induction t using Ty.induct_child generalizing p with
  | node t ih =>
    obtain ⟨hnode, hparts⟩ := Ty.valid_iff.mp ht
    by_cases hkind : t.kind = .var
    · cases t with
      | var v =>
        rw [edit]
        exact hvar p v
      | _ => cases hkind
    · refine Ty.valid_iff.mpr ⟨he.wellMade_edit p hkind hnode, fun k d hd => ?_⟩
      rw [he.child?_edit p hkind] at hd
      obtain ⟨c, hc, rfl⟩ := Option.map_eq_some_iff.mp hd
      exact ih k c hc _ (hparts k c hc)

end Editor.Thorough

theorem Bindings.valid_editVar {s : Bindings}
    (hs : ∀ (x : String) (r : Ty), s[x]? = some r → r.Valid) (p : Ident) (v : Variable) :
    (s.editor.editVar p v).Valid := by
  rw [editVar_eq]
  cases hx : s[v.name]? with
  | none => exact Ty.valid_var v
  | some r =>
    have hr := hs v.name r hx
    rw [Option.map_some, Option.getD_some]
    split_ifs
    · exact (Ty.valid_withModifiers_iff _ _ r).mpr hr
    · exact hr

/-- An editor of modifiers keeps variables. -/
theorem Editor.valid_editVar_modifiers (f : Ident → TypeModifiers → TypeModifiers) (p : Ident)
    (v : Variable) : (editVar { modifiers := f } p v).Valid := by
  have hvar : ∃ w, editVar { modifiers := f } p v = .var w := by
    rw [editVar]
    simp only [Bool.false_eq_true, false_or]
    split_ifs
    · exact ⟨v, rfl⟩
    · exact ⟨_, rfl⟩
  obtain ⟨w, hw⟩ := hvar
  rw [hw]
  exact Ty.valid_var w

/-- A tree is valid if every node passes the checks for its kind, and it stays valid whatever it is
rebuilt to without them: when valid types replace variables, when modifiers are edited at all nodes,
and when the root gets other modifiers or another nullability. -/
theorem Ty.valid_rebuilt (t : Ty) :
    (t.Valid ↔ ∀ path s, t.descend path = some s → s.recheck = .ok s) ∧
    (t.Valid →
      (∀ p (s : Bindings), (∀ (x : String) (r : Ty), s[x]? = some r → r.Valid) →
        (t.substitute p s).Valid) ∧
      (∀ p f, (Editor.edit { modifiers := f } p t).Valid) ∧
      (∀ p m, (t.withModifiers p m).Valid) ∧
      ∀ p n, (t.withNullability p n).Valid) := by
  constructor
  · simp only [Valid, recheck_eq_ok_iff]
  · intro ht
    refine ⟨fun p s hs => ?_, fun p f => ?_, fun p m => ?_, fun p n => ?_⟩
    · rw [Ty.substitute]
      split_ifs
      · exact ht
      · exact s.thorough_editor.valid_edit (Bindings.valid_editVar hs) p ht
    · have he : Editor.Thorough { modifiers := f } := ⟨fun _ => rfl, fun _ _ => rfl⟩
      exact he.valid_edit (Editor.valid_editVar_modifiers f) p ht
    · exact (valid_withModifiers_iff p m t).mpr ht
    · exact (valid_withModifiers_iff p _ t).mpr ht

/-- A function with a receiver of the type `? super T?`, which extends the root class, and with the
result `T`, when `T` becomes an array. -/
theorem Ty.valid_rebuilt_function :
    let root : Ty := .cls ⟨{}, {}, "java.lang.Object", none, []⟩
    let receiver : Ty :=
      .wildcard {} {} (some root) (some (.var { mods := { nullability := .nullable }, name := "T" }))
    let t : Ty := .lambda false true
      ⟨{}, {}, "kotlin.jvm.functions.Function1", none, [receiver, .var { name := "T" }]⟩
    let array : Ty := .array {} {} false (.primitive {} {} .int)
    t.Valid ∧ array.Valid ∧ (t.substitute {} (.ofList [("T", array)])).Valid := by
  intro root receiver t array
  have hroot : root.Valid := valid_iff.mpr ⟨trivial, fun k c hc => by cases k <;> cases hc⟩
  have hreceiver : receiver.Valid := by
    refine valid_iff.mpr ⟨rfl, fun k c hc => ?_⟩
    rcases k with _ | _ | k <;> cases hc
    · exact hroot
    · exact valid_var _
  have ht : t.Valid := by
    refine valid_iff.mpr ⟨Nat.le_refl 2, fun k c hc => ?_⟩
    rcases k with _ | _ | _ | k <;> cases hc
    · exact hreceiver
    · exact valid_var _
  have harray : array.Valid := by
    refine valid_iff.mpr ⟨trivial, fun k c hc => ?_⟩
    rcases k with _ | k <;> cases hc
    exact valid_iff.mpr ⟨trivial, fun _ _ hc => nomatch hc⟩
  refine ⟨ht, harray, ((valid_rebuilt t).2 ht).1 {} _ fun x r hr => ?_⟩
  rw [Std.TreeMap.ofList_singleton, Std.TreeMap.getElem?_insert] at hr
  split_ifs at hr
  · cases hr
    exact harray
  · cases hr

end ApiSurface
