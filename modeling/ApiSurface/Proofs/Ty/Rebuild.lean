import ApiSurface.Proofs.Ty.Sharing
import ApiSurface.Ty.Plain

/-!
An edit without sharing, which makes every node anew, has the same content as the edit that keeps
what it can.
-/

namespace ApiSurface

namespace Editor

mutual

/-- Edits a type and makes every node anew. -/
def remake (e : Editor) (p : Ident) : Ty → Ty
  | .primitive _ m k => .primitive p (e.modifiers p m) k
  | .array _ m v c => .array p (e.modifiers p m) v (remake e (p.child 0) c)
  | .cls c => .cls (remakeClass e p c)
  | .lambda s r c => .lambda s r (remakeClass e p c)
  | .var v =>
    match e.replace? p v with
    | some t => t
    | none => .var ⟨p, e.modifiers p v.mods, v.name⟩
  | .wildcard _ m u l =>
    .wildcard p (e.modifiers p m) (remakeOption e (p.child 0) u) (remakeOption e (p.child 1) l)

def remakeOption (e : Editor) (p : Ident) : Option Ty → Option Ty
  | none => none
  | some t => some (remake e p t)

/-- Makes the arguments anew; the first one has the number `k`. -/
def remakeArgs (e : Editor) (p : Ident) (k : Nat) : List Ty → List Ty
  | [] => []
  | t :: ts => remake e (p.child k) t :: remakeArgs e p (k + 1) ts

def remakeClass (e : Editor) (p : Ident) : ClassTy → ClassTy
  | ⟨_, m, n, o, as⟩ =>
    ⟨p, e.modifiers p m, n, remakeOuter e (p.child 0) o, remakeArgs e p 1 as⟩

def remakeOuter (e : Editor) (p : Ident) : Option ClassTy → Option ClassTy
  | none => none
  | some c => some (remakeClass e p c)

end

theorem plain_editVar {e : Editor} (he : e.Thorough) (p : Ident) (v : Variable) :
    (e.editVar p v).plain = (e.remake p (.var v)).plain := by
  rw [editVar, remake]
  cases e.replace? p v with
  | some t => rfl
  | none =>
    simp only [he.keeps, Bool.false_eq_true, false_or]
    split_ifs with hm
    · rw [hm]
      simp only [Ty.plain]
    · rfl

theorem plainList_editArgs {e : Editor} {p : Ident} {as : List Ty}
    (has : ∀ t ∈ as, ∀ p, (e.edit p t).plain = (e.remake p t).plain) (k : Nat) :
    Ty.plainList (e.editArgs p k as) = Ty.plainList (e.remakeArgs p k as) := by
  induction as generalizing k with
  | nil => rfl
  | cons t ts ih =>
    rw [editArgs_cons, remakeArgs, Ty.plainList, Ty.plainList, has t List.mem_cons_self,
      ih fun u hu => has u (List.mem_cons_of_mem t hu)]

theorem Thorough.plain_edit {e : Editor} (he : e.Thorough) :
    (∀ t, ∀ p, (e.edit p t).plain = (e.remake p t).plain) ∧
      ∀ c, ∀ p, (e.rebuild p c).plain = (e.remakeClass p c).plain := by
  apply Ty.induct
  case primitive =>
    intro i m k p
    rw [he.edit_primitive, remake, Ty.plain, Ty.plain]
  case array =>
    intro i m v c ih p
    rw [he.edit_array, remake, Ty.plain, Ty.plain, ih]
  case cls =>
    intro c ih p
    rw [he.edit_cls, remake, Ty.plain, Ty.plain, ih]
  case lambda =>
    intro s r c ih p
    rw [he.edit_lambda, remake, Ty.plain, Ty.plain, ih]
  case var =>
    intro v p
    rw [edit]
    exact plain_editVar he p v
  case wildcard =>
    intro i m u l hu hl p
    have hbound : ∀ (q : Ident) (b : Option Ty),
        (∀ t ∈ b, ∀ q, (e.edit q t).plain = (e.remake q t).plain) →
        Ty.plainOption (b.map (e.edit q)) = Ty.plainOption (e.remakeOption q b) := by
      intro q b hb
      cases b with
      | none => rfl
      | some t =>
        rw [Option.map_some, remakeOption, Ty.plainOption, Ty.plainOption, hb t rfl]
    rw [he.edit_wildcard, remake, Ty.plain, Ty.plain, hbound _ u hu, hbound _ l hl]
  case mk =>
    intro i m n o as ho has p
    have houter : ClassTy.plainOption (o.map (e.rebuild (p.child 0))) =
        ClassTy.plainOption (e.remakeOuter (p.child 0) o) := by
      cases o with
      | none => rfl
      | some c =>
        rw [Option.map_some, remakeOuter, ClassTy.plainOption, ClassTy.plainOption, ho c rfl]
    rw [he.rebuild, remakeClass, ClassTy.plain, ClassTy.plain, houter, plainList_editArgs has]

/-- Sharing does not change what an edit means: its result has the content of the tree in which
every node is made anew. -/
theorem edit_alike_remake (f : Ident → TypeModifiers → TypeModifiers)
    (g : Ident → Variable → Option Ty) (p : Ident) (t : Ty) :
    ((ofHooks f g).edit p t).alike ((ofHooks f g).remake p t) = true :=
  (Ty.alike_iff _ _).mpr ((thorough_ofHooks f g).plain_edit.1 t p)

end Editor

end ApiSurface
