import ApiSurface.Ty.Equality

/-!
Editing type trees without copying what does not change.

An editor says what becomes of modifiers and variables. Every other node is rebuilt from its
edited parts, except that a node whose parts all stay the same instances stays itself. What is
new takes its identity from its place under the identity given to the run.
-/

namespace ApiSurface

/-- What an editor does. The identity handed to each part is the one that a new instance made
there takes. -/
structure Editor where
  /-- What the modifiers of a node become. -/
  modifiers : Ident → TypeModifiers → TypeModifiers := fun _ m => m
  /-- What a variable becomes; with `none` it is rebuilt like any other node. -/
  replace? : Ident → Variable → Option Ty := fun _ _ => none
  /-- The kinds of nodes that are left alone. -/
  keeps : Ty.Kind → Bool := fun _ => false
  /-- A last step on every class type that has been rebuilt. -/
  finish : Ident → ClassTy → ClassTy := fun _ c => c

namespace Editor

/-- The outcome for a class type, given the class type rebuilt from its parts. -/
def settle (e : Editor) (p : Ident) (c rebuilt : ClassTy) : ClassTy :=
  if e.keeps .cls then c else e.finish p rebuilt

/-- The outcome for a variable. -/
def editVar (e : Editor) (p : Ident) (v : Variable) : Ty :=
  match e.replace? p v with
  | some t => t
  | none =>
    let m := e.modifiers p v.mods
    if e.keeps .var ∨ m = v.mods then .var v else .var { v with id := p, mods := m }

mutual

/-- Edits a type. -/
def edit (e : Editor) (p : Ident) : Ty → Ty
  | .primitive i m k =>
    let m' := e.modifiers p m
    if e.keeps .primitive ∨ m' = m then .primitive i m k else .primitive p m' k
  | .array i m v c =>
    let m' := e.modifiers p m
    let c' := edit e (p.child 0) c
    if e.keeps .array ∨ (m' = m ∧ c' = c) then .array i m v c else .array p m' v c'
  | .cls c => .cls (e.settle p c (rebuild e p c))
  | .lambda s v c =>
    if e.keeps .lambda then .lambda s v c else .lambda s v (rebuild e p c)
  | .var v => e.editVar p v
  | .wildcard i m u l =>
    let m' := e.modifiers p m
    let u' := editOption e (p.child 0) u
    let l' := editOption e (p.child 1) l
    if e.keeps .wildcard ∨ (m' = m ∧ u' = u ∧ l' = l) then .wildcard i m u l
    else .wildcard p m' u' l'

def editOption (e : Editor) (p : Ident) : Option Ty → Option Ty
  | none => none
  | some t => some (edit e p t)

/-- Edits arguments from the number `k` on, when `before` stand in front of them. There is no new
list, `changed`, until an argument changes: it then starts with what stands in front. -/
def editEach (e : Editor) (p : Ident) (k : Nat) (before : List Ty) (changed : Option (List Ty)) :
    List Ty → Option (List Ty)
  | [] => changed
  | t :: ts =>
    let t' := edit e (p.child k) t
    let changed' :=
      match changed with
      | some list => some (list ++ [t'])
      | none => if t' = t then none else some (before ++ [t'])
    editEach e p (k + 1) (before ++ [t]) changed' ts

/-- Rebuilds a class type, or the class type of a lambda, from its edited parts. -/
def rebuild (e : Editor) (p : Ident) : ClassTy → ClassTy
  | ⟨i, m, n, o, as⟩ =>
    let m' := e.modifiers p m
    let o' := editOuter e (p.child 0) o
    let as' := editEach e p 1 [] none as
    if m' = m ∧ o' = o ∧ as'.isNone then ⟨i, m, n, o, as⟩ else ⟨p, m', n, o', as'.getD as⟩

def editOuter (e : Editor) (p : Ident) : Option ClassTy → Option ClassTy
  | none => none
  | some c => some (e.settle p c (rebuild e p c))

end

theorem editOption_eq (e : Editor) (p : Ident) (t : Option Ty) :
    e.editOption p t = t.map (e.edit p) := by
  cases t <;> rfl

theorem editOuter_eq (e : Editor) (p : Ident) (c : Option ClassTy) :
    e.editOuter p c = c.map fun c => e.settle p c (e.rebuild p c) := by
  cases c <;> rfl

/-- The edited arguments, when the first one has the number `k`. -/
def editArgs (e : Editor) (p : Ident) (k : Nat) (ts : List Ty) : List Ty :=
  ts.mapIdx fun i t => e.edit (p.child (k + i)) t

theorem editArgs_nil (e : Editor) (p : Ident) (k : Nat) : e.editArgs p k [] = [] := rfl

theorem editArgs_cons (e : Editor) (p : Ident) (k : Nat) (t : Ty) (ts : List Ty) :
    e.editArgs p k (t :: ts) = e.edit (p.child k) t :: e.editArgs p (k + 1) ts := by
  simp only [editArgs, List.mapIdx_cons, Nat.add_zero, Nat.add_assoc, Nat.add_comm 1]

/-- Once there is a new list, all edited arguments go to its end. -/
theorem editEach_some (e : Editor) (p : Ident) (k : Nat) (before list ts : List Ty) :
    e.editEach p k before (some list) ts = some (list ++ e.editArgs p k ts) := by
  induction ts generalizing k before list with
  | nil => simp [editEach, editArgs_nil]
  | cons t ts ih => simp [editEach, ih, editArgs_cons]

/-- Without a new list so far, one comes about exactly if an argument changes, and it then holds
what stands in front and all edited arguments. -/
theorem editEach_none (e : Editor) (p : Ident) (k : Nat) (before ts : List Ty) :
    e.editEach p k before none ts =
      if e.editArgs p k ts = ts then none else some (before ++ e.editArgs p k ts) := by
  induction ts generalizing k before with
  | nil => simp [editEach, editArgs_nil]
  | cons t ts ih =>
    rw [editEach, editArgs_cons]
    by_cases ht : e.edit (p.child k) t = t
    · simp [ht, ih]
    · simp [ht, editEach_some]

/-- The class type is kept exactly if all its parts are; a new one has all edited parts. -/
theorem rebuild_eq (e : Editor) (p i : Ident) (m : TypeModifiers) (n : String) (o : Option ClassTy)
    (as : List Ty) :
    e.rebuild p ⟨i, m, n, o, as⟩ =
      if e.modifiers p m = m ∧ e.editOuter (p.child 0) o = o ∧ e.editArgs p 1 as = as then
        ⟨i, m, n, o, as⟩
      else ⟨p, e.modifiers p m, n, e.editOuter (p.child 0) o, e.editArgs p 1 as⟩ := by
  rw [rebuild, editEach_none]
  by_cases has : e.editArgs p 1 as = as
  · simp [has]
  · simp [has]

end Editor

/-- Edits the root only, and only if it is a variable. -/
def Ty.mapVariable (f : Variable → Ty) : Ty → Ty
  | .var v => f v
  | t => t

end ApiSurface
