import ApiSurface.Ty.Edit
import ApiSurface.Ty.Induction
import Mathlib.Tactic.SplitIfs

/-!
Which nodes an edit keeps.

An editor that changes modifiers and replaces variables goes through every node. What it makes of a
node differs from a plain rebuild in the identity of the root only, which stays if all parts stay:
these are the equations `edit_primitive` to `edit_wildcard`. So an edited tree holds at every
position the edited part of the tree, and a part stays the same instance exactly if all its nodes do.
-/

namespace ApiSurface

/-- The identity at the end of a path from what is made at `p`. -/
def Ident.along (p : Ident) : List Nat → Ident
  | [] => p
  | k :: ks => (p.child k).along ks

namespace Ty

def id : Ty → Ident
  | primitive i _ _ | array i _ _ _ | wildcard i _ _ _ => i
  | cls c | lambda _ _ c => c.id
  | var v => v.id

/-- The part with the number `k`: the component of an array, the outer type (0) and the arguments
of a class or a lambda, the upper (0) and the lower (1) bound of a wildcard. -/
def child? : Ty → Nat → Option Ty
  | array _ _ _ c, 0 => some c
  | cls c, 0 | lambda _ _ c, 0 => c.outer.map cls
  | cls c, k + 1 | lambda _ _ c, k + 1 => c.args[k]?
  | wildcard _ _ u _, 0 => u
  | wildcard _ _ _ l, 1 => l
  | _, _ => none

def descend (t : Ty) : List Nat → Option Ty
  | [] => some t
  | k :: ks => (t.child? k).bind fun c => c.descend ks

theorem descend_cons_eq_some_iff {t s : Ty} {k : Nat} {ks : List Nat} :
    t.descend (k :: ks) = some s ↔ ∃ c, t.child? k = some c ∧ c.descend ks = some s := by
  rw [descend, Option.bind_eq_some_iff]

theorem child?_withModifiers (p : Ident) (m : TypeModifiers) (t : Ty) (k : Nat) :
    (t.withModifiers p m).child? k = t.child? k := by
  cases t <;> rcases k with _ | _ | k <;> rfl

/-- What holds of every node when it holds of its parts holds of every type. -/
theorem induct_child {P : Ty → Prop}
    (node : ∀ t, (∀ k c, t.child? k = some c → P c) → P t) (t : Ty) : P t := by
  refine (induct (P := P) (Q := fun c => ∀ k d, (cls c).child? k = some d → P d)
    ?_ ?_ ?_ ?_ ?_ ?_ ?_).1 t
  · intro i m k
    apply node
    intro k c hc
    cases hc
  · intro i m v c ih
    apply node
    intro k d hd
    cases k with
    | zero => exact Option.some.inj hd ▸ ih
    | succ k => cases hd
  · intro c ih
    exact node _ ih
  · intro s r c ih
    apply node
    intro k d hd
    cases k with
    | zero => exact ih 0 d hd
    | succ k => exact ih (k + 1) d hd
  · intro v
    apply node
    intro k c hc
    cases hc
  · intro i m u l hu hl
    apply node
    intro k c hc
    match k with
    | 0 => exact hu c hc
    | 1 => exact hl c hc
    | k + 2 => cases hc
  · intro i m n o as ho has k d hd
    cases k with
    | zero =>
      obtain ⟨c, hc, rfl⟩ := Option.map_eq_some_iff.mp hd
      exact node _ (ho c hc)
    | succ k => exact has d (List.mem_of_getElem? hd)

end Ty

namespace Editor

/-- The editor leaves no kind of node alone and takes no last step on class types. -/
structure Thorough (e : Editor) : Prop where
  keeps : ∀ k, e.keeps k = false
  finish : ∀ p c, e.finish p c = c

namespace Thorough

variable {e : Editor} (he : e.Thorough) (p i : Ident) (m : TypeModifiers)
include he

theorem settle (c rebuilt : ClassTy) : e.settle p c rebuilt = rebuilt := by
  rw [Editor.settle, he.keeps, he.finish]
  rfl

theorem edit_primitive (k : Primitive) :
    e.edit p (.primitive i m k) =
      .primitive (if e.modifiers p m = m then i else p) (e.modifiers p m) k := by
  rw [edit]
  simp only [he.keeps, Bool.false_eq_true, false_or]
  by_cases h : e.modifiers p m = m
  · rw [if_pos h, if_pos h, h]
  · rw [if_neg h, if_neg h]

theorem edit_array (v : Bool) (c : Ty) :
    e.edit p (.array i m v c) =
      .array (if e.modifiers p m = m ∧ e.edit (p.child 0) c = c then i else p) (e.modifiers p m) v
        (e.edit (p.child 0) c) := by
  rw [edit]
  simp only [he.keeps, Bool.false_eq_true, false_or]
  by_cases h : e.modifiers p m = m ∧ e.edit (p.child 0) c = c
  · rw [if_pos h, if_pos h, h.1, h.2]
  · rw [if_neg h, if_neg h]

theorem edit_cls (c : ClassTy) : e.edit p (.cls c) = .cls (e.rebuild p c) := by
  rw [edit, he.settle]

theorem edit_lambda (s r : Bool) (c : ClassTy) :
    e.edit p (.lambda s r c) = .lambda s r (e.rebuild p c) := by
  rw [edit, he.keeps]
  rfl

theorem edit_wildcard (u l : Option Ty) :
    e.edit p (.wildcard i m u l) =
      .wildcard
        (if e.modifiers p m = m ∧ u.map (e.edit (p.child 0)) = u ∧ l.map (e.edit (p.child 1)) = l
          then i else p)
        (e.modifiers p m) (u.map (e.edit (p.child 0))) (l.map (e.edit (p.child 1))) := by
  rw [edit]
  simp only [he.keeps, Bool.false_eq_true, false_or, editOption_eq]
  by_cases h : e.modifiers p m = m ∧ u.map (e.edit (p.child 0)) = u ∧
      l.map (e.edit (p.child 1)) = l
  · rw [if_pos h, if_pos h, h.1, h.2.1, h.2.2]
  · rw [if_neg h, if_neg h]

theorem rebuild (n : String) (o : Option ClassTy) (as : List Ty) :
    e.rebuild p ⟨i, m, n, o, as⟩ =
      ⟨if e.modifiers p m = m ∧ o.map (e.rebuild (p.child 0)) = o ∧ e.editArgs p 1 as = as
          then i else p,
        e.modifiers p m, n, o.map (e.rebuild (p.child 0)), e.editArgs p 1 as⟩ := by
  have houter : e.editOuter (p.child 0) o = o.map (e.rebuild (p.child 0)) := by
    rw [editOuter_eq]
    simp only [he.settle]
  rw [rebuild_eq, houter]
  by_cases h : e.modifiers p m = m ∧ o.map (e.rebuild (p.child 0)) = o ∧ e.editArgs p 1 as = as
  · rw [if_pos h, if_pos h, h.1, h.2.1, h.2.2]
  · rw [if_neg h, if_neg h]

theorem mods_rebuild (c : ClassTy) : (e.rebuild p c).mods = e.modifiers p c.mods := by
  obtain ⟨i, m, n, o, as⟩ := c
  rw [he.rebuild]

theorem name_rebuild (c : ClassTy) : (e.rebuild p c).name = c.name := by
  obtain ⟨i, m, n, o, as⟩ := c
  rw [he.rebuild]

theorem simpleName_rebuild (c : ClassTy) : (e.rebuild p c).simpleName = c.simpleName := by
  obtain ⟨i, m, n, o, as⟩ := c
  rw [he.rebuild, ClassTy.simpleName, ClassTy.simpleName, Option.bind_map]
  simp only [Function.comp_def, he.name_rebuild]

/-- Only variables become nodes of another kind. -/
theorem kind_edit {t : Ty} (ht : t.kind ≠ .var) : (e.edit p t).kind = t.kind := by
  cases t with
  | primitive i m k => rw [he.edit_primitive, Ty.kind, Ty.kind]
  | array i m v c => rw [he.edit_array, Ty.kind, Ty.kind]
  | cls c => rw [he.edit_cls, Ty.kind, Ty.kind]
  | lambda s r c => rw [he.edit_lambda, Ty.kind, Ty.kind]
  | var v => exact absurd rfl ht
  | wildcard i m u l => rw [he.edit_wildcard, Ty.kind, Ty.kind]

theorem isObject_edit_eq {t : Ty} (ht : t.kind ≠ .var) :
    (e.edit p t).isObject = t.isObject := by
  cases t with
  | primitive i m k =>
    rw [he.edit_primitive]
    rfl
  | array i m v c =>
    rw [he.edit_array]
    rfl
  | cls c =>
    rw [he.edit_cls]
    exact congrArg (· == objectName) (he.name_rebuild p c)
  | lambda s r c =>
    rw [he.edit_lambda]
    exact congrArg (· == objectName) (he.name_rebuild p c)
  | var v => exact absurd rfl ht
  | wildcard i m u l =>
    rw [he.edit_wildcard]
    rfl

/-- The parts of an edited node are its edited parts. -/
theorem child?_edit {t : Ty} (ht : t.kind ≠ .var) (k : Nat) :
    (e.edit p t).child? k = (t.child? k).map (e.edit (p.child k)) := by
  have hclass : ∀ c : ClassTy, ∀ k, (Ty.cls (e.rebuild p c)).child? k =
      ((Ty.cls c).child? k).map (e.edit (p.child k)) := by
    intro ⟨i, m, n, o, as⟩ k
    rw [he.rebuild]
    cases k with
    | zero =>
      simp only [Ty.child?, Option.map_map]
      congr 1
      funext c
      exact (he.edit_cls (p.child 0) c).symm
    | succ k => simp [Ty.child?, editArgs, Nat.add_comm 1]
  cases t with
  | primitive i m kind =>
    rw [he.edit_primitive]
    rfl
  | array i m v c =>
    rw [he.edit_array]
    cases k <;> rfl
  | cls c =>
    rw [he.edit_cls]
    exact hclass c k
  | lambda s r c =>
    rw [he.edit_lambda]
    cases k with
    | zero => exact hclass c 0
    | succ k => exact hclass c (k + 1)
  | var v => exact absurd rfl ht
  | wildcard i m u l =>
    rw [he.edit_wildcard]
    rcases k with _ | _ | k <;> rfl

theorem mods_edit {t : Ty} (ht : t.kind ≠ .var) : (e.edit p t).mods = e.modifiers p t.mods := by
  cases t with
  | primitive i m kind =>
    rw [he.edit_primitive]
    rfl
  | array i m v c =>
    rw [he.edit_array]
    rfl
  | cls c =>
    obtain ⟨i, m, n, o, as⟩ := c
    rw [he.edit_cls, he.rebuild]
    rfl
  | lambda s r c =>
    obtain ⟨i, m, n, o, as⟩ := c
    rw [he.edit_lambda, he.rebuild]
    rfl
  | var v => exact absurd rfl ht
  | wildcard i m u l =>
    rw [he.edit_wildcard]
    rfl

theorem rebuild_eq_self {c : ClassTy} (hm : e.modifiers p c.mods = c.mods)
    (hchild : ∀ k d, (Ty.cls c).child? k = some d → e.edit (p.child k) d = d) :
    e.rebuild p c = c := by
  obtain ⟨i, m, n, o, as⟩ := c
  have ho : o.map (e.rebuild (p.child 0)) = o := by
    cases o with
    | none => rfl
    | some c =>
      have hc := hchild 0 (.cls c) rfl
      rw [he.edit_cls] at hc
      rw [Option.map_some, Ty.cls.inj hc]
  have has : e.editArgs p 1 as = as := by
    apply List.ext_getElem?
    intro k
    rw [editArgs, List.getElem?_mapIdx]
    cases hk : as[k]? with
    | none => rfl
    | some d =>
      have hd := hchild (k + 1) d hk
      rw [Option.map_some, Nat.add_comm 1, hd]
  rw [rebuild_eq, if_pos]
  exact ⟨hm, by rw [editOuter_eq]; simp only [he.settle]; exact ho, has⟩

/-- A node other than a variable stays the same instance exactly if its modifiers and its parts
do. -/
theorem edit_eq_self_iff {t : Ty} (ht : t.kind ≠ .var) :
    e.edit p t = t ↔ e.modifiers p t.mods = t.mods ∧
      ∀ k c, t.child? k = some c → e.edit (p.child k) c = c := by
  constructor
  · intro h
    refine ⟨by rw [← he.mods_edit p ht, h], ?_⟩
    intro k c hc
    have hchild := he.child?_edit p ht k
    rw [h, hc, Option.map_some] at hchild
    exact (Option.some.inj hchild).symm
  · rintro ⟨hm, hchild⟩
    cases t with
    | primitive i m kind =>
      change e.modifiers p m = m at hm
      rw [he.edit_primitive, if_pos hm, hm]
    | array i m v c =>
      change e.modifiers p m = m at hm
      have hc := hchild 0 c rfl
      rw [he.edit_array, if_pos ⟨hm, hc⟩, hm, hc]
    | cls c => rw [he.edit_cls, he.rebuild_eq_self p hm hchild]
    | lambda s r c =>
      rw [he.edit_lambda, he.rebuild_eq_self p hm]
      intro k d hd
      exact hchild k d (by cases k <;> exact hd)
    | var v => exact absurd rfl ht
    | wildcard i m u l =>
      change e.modifiers p m = m at hm
      have hu : u.map (e.edit (p.child 0)) = u := by
        cases u with
        | none => rfl
        | some c => rw [Option.map_some, hchild 0 c rfl]
      have hl : l.map (e.edit (p.child 1)) = l := by
        cases l with
        | none => rfl
        | some c => rw [Option.map_some, hchild 1 c rfl]
      rw [he.edit_wildcard, if_pos ⟨hm, hu, hl⟩, hm, hu, hl]

/-- A node that does not stay is a new instance with the identity of its place. -/
theorem id_edit {t : Ty} (ht : t.kind ≠ .var) (hne : e.edit p t ≠ t) : (e.edit p t).id = p := by
  have hclass : ∀ c : ClassTy, e.rebuild p c ≠ c → (e.rebuild p c).id = p := by
    intro ⟨i, m, n, o, as⟩ hne
    rw [rebuild_eq] at hne ⊢
    split_ifs at hne ⊢ with h
    · exact absurd rfl hne
    · rfl
  cases t with
  | primitive i m kind =>
    rw [he.edit_primitive] at hne ⊢
    refine if_neg fun h => hne ?_
    rw [if_pos h, h]
  | array i m v c =>
    rw [he.edit_array] at hne ⊢
    refine if_neg fun h => hne ?_
    rw [if_pos h, h.1, h.2]
  | cls c =>
    rw [he.edit_cls] at hne ⊢
    exact hclass c fun h => hne (by rw [h])
  | lambda s r c =>
    rw [he.edit_lambda] at hne ⊢
    exact hclass c fun h => hne (by rw [h])
  | var v => exact absurd rfl ht
  | wildcard i m u l =>
    rw [he.edit_wildcard] at hne ⊢
    refine if_neg fun h => hne ?_
    rw [if_pos h, h.1, h.2.1, h.2.2]

end Thorough

/-- Both hooks hand back what they are given at one node. A variable is replaced by itself, or by
nothing and its modifiers stay; every other node keeps its modifiers. -/
inductive KeepsNode (f : Ident → TypeModifiers → TypeModifiers) (g : Ident → Variable → Option Ty)
    (p : Ident) : Ty → Prop where
  | replaced {v : Variable} (given : g p v = some (.var v)) : KeepsNode f g p (.var v)
  | unreplaced {v : Variable} (given : g p v = none) (mods : f p v.mods = v.mods) :
      KeepsNode f g p (.var v)
  | node {t : Ty} (kind : t.kind ≠ .var) (mods : f p t.mods = t.mods) : KeepsNode f g p t

section KeepsNode

variable {f : Ident → TypeModifiers → TypeModifiers} {g : Ident → Variable → Option Ty} {p : Ident}

theorem keepsNode_iff {t : Ty} (ht : t.kind ≠ .var) :
    KeepsNode f g p t ↔ f p t.mods = t.mods := by
  constructor
  · intro h
    cases h with
    | replaced _ => exact absurd rfl ht
    | unreplaced _ _ => exact absurd rfl ht
    | node _ mods => exact mods
  · exact .node ht

theorem keepsNode_var_iff_of_some {v : Variable} {u : Ty} (hu : g p v = some u) :
    KeepsNode f g p (.var v) ↔ u = .var v := by
  constructor
  · intro h
    cases h with
    | replaced given => exact Option.some.inj (hu.symm.trans given)
    | unreplaced given _ => cases hu.symm.trans given
    | node kind _ => exact absurd rfl kind
  · rintro rfl
    exact .replaced hu

theorem keepsNode_var_iff_of_none {v : Variable} (hnone : g p v = none) :
    KeepsNode f g p (.var v) ↔ f p v.mods = v.mods := by
  constructor
  · intro h
    cases h with
    | replaced given => cases hnone.symm.trans given
    | unreplaced _ mods => exact mods
    | node kind _ => exact absurd rfl kind
  · exact .unreplaced hnone

end KeepsNode

theorem editVar_of_some {e : Editor} {p : Ident} {v : Variable} {u : Ty}
    (hu : e.replace? p v = some u) : e.editVar p v = u := by
  rw [editVar, hu]

/-- A variable stays exactly if the hooks keep it. -/
theorem editVar_eq_self_iff {e : Editor} {p : Ident} {v : Variable}
    (hkeeps : e.keeps .var = false) :
    e.editVar p v = .var v ↔ KeepsNode e.modifiers e.replace? p (.var v) := by
  cases hv : e.replace? p v with
  | some u => rw [editVar_of_some hv, keepsNode_var_iff_of_some hv]
  | none =>
    rw [keepsNode_var_iff_of_none hv]
    simp only [editVar, hv, hkeeps, Bool.false_eq_true, false_or]
    split_ifs with h
    · exact iff_of_true rfl h
    · refine iff_of_false (fun heq => h ?_) h
      exact congrArg Ty.mods heq

namespace Thorough

variable {e : Editor} (he : e.Thorough)
include he

/-- An edited tree holds at every position the edited part of the tree. -/
theorem descend_edit {path : List Nat} {p : Ident} {t s : Ty} (hs : t.descend path = some s) :
    (e.edit p t).descend path = some (e.edit (p.along path) s) := by
  induction path generalizing p t with
  | nil =>
    obtain rfl := Option.some.inj hs
    rfl
  | cons k ks ih =>
    obtain ⟨c, hc, hs⟩ := Ty.descend_cons_eq_some_iff.mp hs
    have ht : t.kind ≠ .var := by
      intro hvar
      cases t with
      | var v => cases hc
      | _ => cases hvar
    refine Ty.descend_cons_eq_some_iff.mpr ⟨e.edit (p.child k) c, ?_, ih hs⟩
    rw [he.child?_edit p ht, hc, Option.map_some]

/-- A tree stays the same instance exactly if the hooks keep all its nodes. -/
theorem edit_eq_self_iff_nodes (p : Ident) (t : Ty) :
    e.edit p t = t ↔ ∀ path s, t.descend path = some s →
      KeepsNode e.modifiers e.replace? (p.along path) s := by
  induction t using Ty.induct_child generalizing p with
  | node t ih =>
    by_cases ht : t.kind = .var
    · cases t with
      | var v =>
        rw [edit, editVar_eq_self_iff (he.keeps .var)]
        constructor
        · intro h path s hs
          cases path with
          | nil =>
            obtain rfl := Option.some.inj hs
            exact h
          | cons k ks => cases hs
        · intro h
          exact h [] _ rfl
      | _ => cases ht
    · rw [he.edit_eq_self_iff p ht, ← keepsNode_iff (g := e.replace?) ht]
      constructor
      · rintro ⟨hnode, hchild⟩ path s hs
        cases path with
        | nil =>
          obtain rfl := Option.some.inj hs
          exact hnode
        | cons k ks =>
          obtain ⟨c, hc, hs⟩ := Ty.descend_cons_eq_some_iff.mp hs
          exact (ih k c hc (p.child k)).mp (hchild k c hc) ks s hs
      · intro h
        refine ⟨h [] t rfl, ?_⟩
        intro k c hc
        rw [ih k c hc]
        intro path s hs
        exact h (k :: path) s (Ty.descend_cons_eq_some_iff.mpr ⟨c, hc, hs⟩)

end Thorough

/-- The editor with these two parts that leaves no node alone. -/
def ofHooks (modifiers : Ident → TypeModifiers → TypeModifiers)
    (replace? : Ident → Variable → Option Ty) : Editor where
  modifiers := modifiers
  replace? := replace?

theorem thorough_ofHooks (f : Ident → TypeModifiers → TypeModifiers)
    (g : Ident → Variable → Option Ty) : (ofHooks f g).Thorough where
  keeps _ := rfl
  finish _ _ := rfl

/-- An edit shares whatever it can. It hands back the tree it was given exactly if both hooks hand
back what they are given at every node: the modifiers of a node that is no variable, and the variable
itself where it is replaced, or else its modifiers. The same holds at every position: there the
result has the edit of the part, which is the part itself or else a new instance. With no hook,
everything is kept. -/
theorem edit_shares (f : Ident → TypeModifiers → TypeModifiers) (g : Ident → Variable → Option Ty)
    (p : Ident) (t : Ty) :
    ((ofHooks f g).edit p t = t ↔
      ∀ path s, t.descend path = some s → KeepsNode f g (p.along path) s) ∧
    (∀ path s, t.descend path = some s →
      ((ofHooks f g).edit p t).descend path = some ((ofHooks f g).edit (p.along path) s) ∧
      ((ofHooks f g).edit (p.along path) s = s ↔ ∀ below u, s.descend below = some u →
        KeepsNode f g ((p.along path).along below) u) ∧
      (s.kind ≠ .var → (ofHooks f g).edit (p.along path) s ≠ s →
        ((ofHooks f g).edit (p.along path) s).id = p.along path)) ∧
    (∀ q s, s.kind ≠ .var → (KeepsNode f g q s ↔ f q s.mods = s.mods)) ∧
    (∀ q v u, g q v = some u →
      (ofHooks f g).edit q (.var v) = u ∧ (KeepsNode f g q (.var v) ↔ u = .var v)) ∧
    (∀ q v, g q v = none → (KeepsNode f g q (.var v) ↔ f q v.mods = v.mods)) ∧
    Editor.edit {} p t = t := by
  have he := thorough_ofHooks f g
  refine ⟨he.edit_eq_self_iff_nodes p t, ?_, fun _ _ => keepsNode_iff, ?_,
    fun _ _ => keepsNode_var_iff_of_none, ?_⟩
  · intro path s hs
    refine ⟨he.descend_edit hs, he.edit_eq_self_iff_nodes _ s, ?_⟩
    intro hvar hne
    exact he.id_edit _ hvar hne
  · intro q v u hu
    refine ⟨?_, keepsNode_var_iff_of_some hu⟩
    rw [edit]
    exact editVar_of_some hu
  · have hdefault : Thorough {} := ⟨fun _ => rfl, fun _ _ => rfl⟩
    rw [hdefault.edit_eq_self_iff_nodes]
    intro path s _
    cases s with
    | var v => exact .unreplaced rfl rfl
    | _ => exact .node nofun rfl

end Editor

end ApiSurface
