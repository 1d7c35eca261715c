import ApiSurface.Proofs.Ty.Noninterference
import ApiSurface.Proofs.Ty.Variables
import ApiSurface.Ty.Checked

/-!
The parts of a lambda.

The arguments of a lambda with enough of them are its receiver, its parameters and its result. The
parts are found by their places, so whatever treats the arguments one by one treats the parts one by
one, and no operation on types changes what is the receiver, a parameter or the result. The place of
the parameters lies within the arguments however many there are.
-/

namespace ApiSurface

theorem Editor.Thorough.args_rebuild {e : Editor} (he : e.Thorough) (p : Ident) (c : ClassTy) :
    (e.rebuild p c).args = c.args.mapIdx fun k => e.edit (p.child (k + 1)) := by
  obtain ⟨i, m, n, o, as⟩ := c
  rw [he.rebuild]
  simp only [Editor.editArgs, Nat.add_comm 1]

namespace Ty

theorem parametersStart_le_parametersStop (receiver : Bool) (n : Nat) :
    parametersStart receiver n ≤ parametersStop receiver n := by
  unfold parametersStop
  omega

theorem parametersStop_le (receiver : Bool) (n : Nat) : parametersStop receiver n ≤ n := by
  unfold parametersStop parametersStart
  omega

/-- The parameters are what is left without the receiver and the last argument. -/
theorem parameters_eq_dropLast (receiver : Bool) (args : List Ty) :
    parameters receiver args = (args.drop receiver.toNat).dropLast := by
  rw [parameters, List.extract_eq_take_drop, List.dropLast_eq_take, List.length_drop]
  unfold parametersStop parametersStart
  by_cases hroom : receiver.toNat ≤ args.length
  · rw [Nat.min_eq_left hroom]
    congr 1
    omega
  · have hnone : args.drop receiver.toNat = [] := List.drop_eq_nil_of_le (by omega)
    rw [Nat.min_eq_right (by omega), List.drop_length, hnone, List.take_nil, List.take_nil]

theorem length_parameters (receiver : Bool) (args : List Ty) :
    (parameters receiver args).length = args.length - neededArgs receiver := by
  rw [parameters_eq_dropLast, List.length_dropLast, List.length_drop]
  cases receiver with
  | false => rfl
  | true => exact Nat.sub_sub args.length 1 1

/-- The arguments are the receiver, if there has to be one, then the parameters, then the result. -/
structure LaidOut (receiver : Bool) (args : List Ty) : Prop where
  parts : args =
    (receiver? receiver args).toList ++ parameters receiver args ++ (result? args).toList
  receiver : (receiver? receiver args).isSome = receiver
  result : (result? args).isSome = true

theorem laidOut_of_neededArgs_le {receiver : Bool} {args : List Ty}
    (h : neededArgs receiver ≤ args.length) : LaidOut receiver args := by
  -- the result is the last of the arguments behind the receiver, of which there are some
  obtain ⟨front, last, hrest⟩ : ∃ front last, args.drop receiver.toNat = front ++ [last] := by
    refine ⟨_, _, (List.dropLast_concat_getLast (l := args.drop receiver.toNat) ?_).symm⟩
    rw [ne_eq, List.drop_eq_nil_iff]
    cases receiver with
    | false => exact Nat.not_le.mpr h
    | true => exact Nat.not_le.mpr h
  have hparameters : parameters receiver args = front := by
    rw [parameters_eq_dropLast, hrest, List.dropLast_concat]
  cases receiver with
  | false =>
    have hargs : args = front ++ [last] := hrest
    have hresult : result? args = some last := by rw [result?, hargs, List.getLast?_concat]
    exact ⟨by rw [hparameters, hresult]; exact hargs, rfl, by rw [hresult]; rfl⟩
  | true =>
    obtain ⟨first, rest, rfl⟩ : ∃ first rest, args = first :: rest :=
      List.exists_cons_of_length_pos (Nat.lt_of_lt_of_le Nat.two_pos h)
    have hargs : first :: rest = first :: (front ++ [last]) := congrArg (first :: ·) hrest
    have hresult : result? (first :: rest) = some last := by
      rw [result?, hargs, ← List.cons_append, List.getLast?_concat]
    exact ⟨by rw [hparameters, hresult]; exact hargs, rfl, by rw [hresult]; rfl⟩

theorem newLambda_eq_ok_iff {suspend receiver : Bool} {c : ClassTy} {t : Ty} :
    newLambda suspend receiver c = .ok t ↔
      neededArgs receiver ≤ c.args.length ∧ t = lambda suspend receiver c := by
  unfold newLambda
  dsimp only
  split_ifs with hlt
  · exact iff_of_false nofun fun h => absurd h.1 (Nat.not_le.mpr hlt)
  · rw [Except.ok.injEq]
    exact ⟨fun h => ⟨Nat.le_of_not_lt hlt, h.symm⟩, fun h => h.2.symm⟩

/-! The parts of arguments that were treated one by one. -/

section

variable (f : Nat → Ty → Ty) (receiver : Bool) (args : List Ty)

theorem receiver?_mapIdx :
    receiver? receiver (args.mapIdx f) = (receiver? receiver args).map (f 0) := by
  cases receiver with
  | false => rfl
  | true => exact List.head?_mapIdx

theorem parameters_mapIdx :
    parameters receiver (args.mapIdx f) =
      (parameters receiver args).mapIdx fun k => f (receiver.toNat + k) := by
  have hdrop : (args.mapIdx f).drop receiver.toNat =
      (args.drop receiver.toNat).mapIdx fun k => f (receiver.toNat + k) := by
    apply List.ext_getElem?
    intro k
    rw [List.getElem?_drop, List.getElem?_mapIdx, List.getElem?_mapIdx, List.getElem?_drop]
  rw [parameters_eq_dropLast, parameters_eq_dropLast, hdrop]
  generalize args.drop receiver.toNat = rest
  apply List.ext_getElem?
  intro k
  simp only [List.dropLast_eq_take, List.getElem?_take, List.getElem?_mapIdx, List.length_mapIdx]
  split_ifs <;> rfl

theorem mapIdx_self : (args.mapIdx fun _ t => t) = args :=
  List.mapIdx_eq_iff.mpr fun _ => by simp

theorem result?_mapIdx :
    result? (args.mapIdx f) = (result? args).map (f (args.length - 1)) :=
  List.getLast?_mapIdx

end

/-- The operations that make a type anew without a check. -/
inductive Operation where
  | substitute (p : Ident) (s : Bindings)
  | editModifiers (p : Ident) (f : Ident → TypeModifiers → TypeModifiers)
  | withNullability (p : Ident) (n : Nullability)

namespace Operation

def apply : Operation → Ty → Ty
  | substitute p s, t => t.substitute p s
  | editModifiers p f, t => Editor.edit { modifiers := f } p t
  | withNullability p n, t => t.withNullability p n

/-- What becomes of the argument number `k` of a lambda: the same operation is applied to it at its
own place, except that another nullability is a matter of the root alone. -/
def onArgument (k : Nat) : Operation → Ty → Ty
  | substitute p s, t => (substitute (p.child (k + 1)) s).apply t
  | editModifiers p f, t => (editModifiers (p.child (k + 1)) f).apply t
  | withNullability _ _, t => t

/-- One operation after the other. -/
def applyAll (ops : List Operation) (t : Ty) : Ty := ops.foldl (fun t op => op.apply t) t

/-- What becomes of the argument number `k` of a lambda under one operation after the other. -/
def onArgumentAll (ops : List Operation) (k : Nat) (t : Ty) : Ty :=
  ops.foldl (fun t op => op.onArgument k t) t

/-- An operation on a lambda gives a lambda with the same flags and with its arguments treated one
by one. -/
theorem exists_apply_lambda (op : Operation) (suspend receiver : Bool) (c : ClassTy) :
    ∃ c', op.apply (lambda suspend receiver c) = lambda suspend receiver c' ∧
      c'.args = c.args.mapIdx fun k => op.onArgument k := by
  cases op with
  | substitute p s =>
    refine ⟨s.editor.rebuild p c, ?_, ?_⟩
    · rw [apply, s.substitute_eq_edit, s.thorough_editor.edit_lambda]
    · rw [s.thorough_editor.args_rebuild]
      congr 1
      funext k t
      exact (s.substitute_eq_edit (p.child (k + 1)) t).symm
  | editModifiers p f =>
    have he := Editor.thorough_modifiers f
    exact ⟨_, he.edit_lambda p suspend receiver c, he.args_rebuild p c⟩
  | withNullability p n =>
    exact ⟨_, rfl, (mapIdx_self c.args).symm⟩

/-- So does one operation after the other. -/
theorem exists_applyAll_lambda (ops : List Operation) (suspend receiver : Bool) (c : ClassTy) :
    ∃ c', applyAll ops (lambda suspend receiver c) = lambda suspend receiver c' ∧
      c'.args = c.args.mapIdx fun k => onArgumentAll ops k := by
  induction ops generalizing c with
  | nil => exact ⟨c, rfl, (mapIdx_self c.args).symm⟩
  | cons op ops ih =>
    obtain ⟨c₁, happly, hargs₁⟩ := op.exists_apply_lambda suspend receiver c
    obtain ⟨c', hall, hargs'⟩ := ih c₁
    refine ⟨c', ?_, ?_⟩
    · rw [applyAll, List.foldl_cons, happly]
      exact hall
    · rw [hargs', hargs₁, List.mapIdx_mapIdx]
      rfl

end Operation

/-- The arguments of a lambda that passes the check are its receiver, its parameters and its result,
and so they are after any operations: the results are lambdas with the same flags, and their parts
are the results of the same operations on the parts. Of however many arguments, the parameters are a
slice that lies within them. -/
theorem newLambda_parts {suspend receiver : Bool} {c : ClassTy} {t : Ty}
    (ht : newLambda suspend receiver c = .ok t) (ops : List Operation) :
    LaidOut receiver c.args ∧
    (∃ c', Operation.applyAll ops t = lambda suspend receiver c' ∧
      LaidOut receiver c'.args ∧
      receiver? receiver c'.args =
        (receiver? receiver c.args).map (Operation.onArgumentAll ops 0) ∧
      parameters receiver c'.args =
        (parameters receiver c.args).mapIdx
          (fun k => Operation.onArgumentAll ops (receiver.toNat + k)) ∧
      result? c'.args =
        (result? c.args).map (Operation.onArgumentAll ops (c.args.length - 1))) ∧
    ∀ (receiver : Bool) (args : List Ty),
      parametersStart receiver args.length ≤ parametersStop receiver args.length ∧
      parametersStop receiver args.length ≤ args.length ∧
      (parameters receiver args).length = args.length - neededArgs receiver := by
  obtain ⟨hneeded, rfl⟩ := newLambda_eq_ok_iff.mp ht
  obtain ⟨c', hall, hargs⟩ := Operation.exists_applyAll_lambda ops suspend receiver c
  have hneeded' : neededArgs receiver ≤ c'.args.length := by
    rw [hargs, List.length_mapIdx]
    exact hneeded
  refine ⟨laidOut_of_neededArgs_le hneeded, ⟨c', hall, laidOut_of_neededArgs_le hneeded', ?_⟩,
    fun receiver args => ?_⟩
  · rw [hargs]
    exact ⟨receiver?_mapIdx _ receiver c.args, parameters_mapIdx _ receiver c.args,
      result?_mapIdx _ c.args⟩
  · exact ⟨parametersStart_le_parametersStop receiver _, parametersStop_le receiver _,
      length_parameters receiver args⟩

/-- A suspending function from a receiver `T` and an `int` to a nullable `T`, first as a nullable
type, then with `long` for `T`. -/
theorem newLambda_parts_receiver :
    let long : Ty := .primitive {} {} .long
    let parameter : Ty := .primitive {} {} .int
    let marked : TypeModifiers := { nullability := .nullable }
    let c : ClassTy := ⟨{}, {}, "kotlin.jvm.functions.Function2", none,
      [.var { name := "T" }, parameter, .var { mods := marked, name := "T" }]⟩
    let p : Ident := ⟨1, []⟩
    let ops : List Operation :=
      [.withNullability {} .nullable, .substitute p (.ofList [("T", long)])]
    newLambda true true c = .ok (lambda true true c) ∧
      ∃ c', Operation.applyAll ops (lambda true true c) = lambda true true c' ∧
        receiver? true c'.args = some long ∧ parameters true c'.args = [parameter] ∧
        result? c'.args = some (long.withNullability (p.child 3) .nullable) := by
  intro long parameter marked c p ops
  have hnew : newLambda true true c = .ok (lambda true true c) := rfl
  obtain ⟨_, ⟨c', hall, _, hreceiver, hparameters, hresult⟩, _⟩ := newLambda_parts hnew ops
  refine ⟨hnew, c', hall, hreceiver.trans ?_, hparameters.trans ?_, hresult.trans ?_⟩
  · decide +kernel
  · decide +kernel
  · decide +kernel

end Ty

end ApiSurface
