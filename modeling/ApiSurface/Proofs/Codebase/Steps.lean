import ApiSurface.Codebase.Builder
import Mathlib.Tactic.SplitIfs
import Std.Data.TreeMap.Lemmas

/-!
What the calls that build tables do.

`Effect` lists the calls that succeed, each with what it checked, its answer and the tables that it
leaves. A call that is not among them changes nothing, so a property that every effect keeps holds
after every list of calls.
-/

namespace ApiSurface.Tables

variable {t t' : Tables}

/-- A class of this name may be put into the package, and into the class `container` if there is
one. -/
structure Admits (t : Tables) (package : PackageId) (container : Option ClassId)
    (name : String) : Prop where
  inPackage : ∃ e, t.packages[package]? = some e ∧
    (e.decl.name ≠ "" → Text.isInside e.decl.name name = true)
  fresh : t.classIndex[name]? = none
  inContainer : ∀ outer, container = some outer →
    ∃ e, t.classes[outer]? = some e ∧ e.package = package ∧
      Text.isInside e.decl.name name = true

/-- The effect of a call that succeeds. -/
inductive Effect (t : Tables) : Call → Answer → Tables → Prop where
  | knownPackage {decl : PackageDecl} {id : PackageId}
      (known : t.packageIndex[decl.name]? = some id) :
      Effect t (.addPackage decl) (.id id) t
  | newPackage {decl : PackageDecl} (fresh : t.packageIndex[decl.name]? = none) :
      Effect t (.addPackage decl) (.id t.packages.size) (t.putPackage decl)
  | newClass {package : PackageId} {container : Option ClassId} {decl : ClassDecl}
      (admits : t.Admits package container decl.name) :
      Effect t (.addClass package container decl) (.id t.classes.size)
        (t.putClass package container decl)
  | newMember {c : ClassId} {decl : MemberDecl} {ty : Ty} (hc : c < t.classes.size)
      (typed : t.declaredType c decl = .ok ty) :
      Effect t (.addMember c decl) (.id t.members.size) (t.putMember c decl ty)
  | newAlias {package : PackageId} {decl : AliasDecl} (hp : package < t.packages.size)
      (fresh : t.aliasIndex[decl.name]? = none) :
      Effect t (.addAlias package decl) (.id t.aliases.size) (t.putAlias package decl)
  | memberType {m : MemberId} {ty : Ty} (hm : m < t.members.size) :
      Effect t (.setType (.member m) ty) .done (t.changeMember m fun e => { e with ty })
  | parameterType {m : MemberId} {index : Nat} {ty : Ty} {e : MemberEntry}
      (he : t.members[m]? = some e) (hi : index < e.parameters.length) :
      Effect t (.setType (.parameter m index) ty) .done (t.changeMember m fun e =>
        { e with parameters := e.parameters.modify index fun p => { p with ty } })

theorem checkContainer_eq_ok_iff {package : PackageId} {container : Option ClassId}
    {name : String} :
    t.checkContainer package container name = .ok () ↔
      ∀ outer, container = some outer → ∃ e, t.classes[outer]? = some e ∧ e.package = package ∧
        Text.isInside e.decl.name name = true := by
  cases container with
  | none => simp [checkContainer]
  | some outer =>
    cases h : t.classes[outer]? with
    | none => simp [checkContainer, h]
    | some e =>
      simp only [checkContainer, h, Option.some.injEq, forall_eq', exists_eq_left']
      split_ifs with hp hn <;> simp_all

theorem checkClass_eq_ok_iff {package : PackageId} {container : Option ClassId} {name : String} :
    t.checkClass package container name = .ok () ↔ t.Admits package container name := by
  have hfresh : t.classIndex.contains name = true ↔ t.classIndex[name]? ≠ none := by
    rw [Std.TreeMap.contains_eq_isSome_getElem?, Option.isSome_iff_ne_none]
  cases h : t.packages[package]? with
  | none =>
    simp only [checkClass, h, reduceCtorEq, false_iff]
    intro hadm
    obtain ⟨e, he, _⟩ := hadm.inPackage
    rw [h] at he
    cases he
  | some e =>
    simp only [checkClass, h]
    split_ifs with hdup hname
    · simp only [false_iff]
      intro hadm
      exact hfresh.mp hdup hadm.fresh
    · simp only [false_iff]
      intro hadm
      obtain ⟨e', he', hin⟩ := hadm.inPackage
      rw [h, Option.some.injEq] at he'
      subst he'
      simp_all
    · rw [checkContainer_eq_ok_iff]
      constructor
      · intro hcont
        exact ⟨⟨e, h, by simpa using hname⟩, by simpa [hfresh] using hdup, hcont⟩
      · exact Admits.inContainer

/-- A computation that answers is a first part that answers and a second part on its answer. -/
theorem bind_eq_ok_iff {α β : Type} {x : Except Error α} {f : α → Except Error β} {b : β} :
    (x >>= f) = .ok b ↔ ∃ a, x = .ok a ∧ f a = .ok b := by
  cases x with
  | error e => simp [bind, Except.bind]
  | ok a => simp [bind, Except.bind]

theorem addClass_eq_ok_iff {package : PackageId} {container : Option ClassId} {decl : ClassDecl}
    {id : ClassId} :
    t.addClass package container decl = .ok (id, t') ↔ t.Admits package container decl.name ∧
      t.classes.size = id ∧ t.putClass package container decl = t' := by
  unfold addClass
  rw [bind_eq_ok_iff, ← checkClass_eq_ok_iff]
  constructor
  · rintro ⟨⟨⟩, hcheck, hret⟩
    cases hret
    exact ⟨hcheck, rfl, rfl⟩
  · rintro ⟨hcheck, rfl, rfl⟩
    exact ⟨(), hcheck, rfl⟩

theorem addMember_eq_ok_iff {c : ClassId} {decl : MemberDecl} {id : MemberId} :
    t.addMember c decl = .ok (id, t') ↔ c < t.classes.size ∧
      ∃ ty, t.declaredType c decl = .ok ty ∧ t.members.size = id ∧ t.putMember c decl ty = t' := by
  unfold addMember
  by_cases hc : t.classes.size ≤ c
  · simp [hc, throw, throwThe, MonadExceptOf.throw, bind, Except.bind, Nat.not_lt.mpr hc]
  · simp only [hc, if_false, bind_eq_ok_iff, true_and, Nat.not_le.mp hc]
    simp [pure, Except.pure]

theorem addAlias_eq_ok_iff {package : PackageId} {decl : AliasDecl} {id : AliasId} :
    t.addAlias package decl = .ok (id, t') ↔ package < t.packages.size ∧
      t.aliasIndex[decl.name]? = none ∧ t.aliases.size = id ∧ t.putAlias package decl = t' := by
  have hfresh : t.aliasIndex.contains decl.name = true ↔ t.aliasIndex[decl.name]? ≠ none := by
    rw [Std.TreeMap.contains_eq_isSome_getElem?, Option.isSome_iff_ne_none]
  unfold addAlias
  split_ifs with hp hdup
  · simp [Nat.not_lt.mpr hp]
  · simp [hfresh.mp hdup]
  · have hnone : t.aliasIndex[decl.name]? = none := by simpa [hfresh] using hdup
    simp [Nat.not_le.mp hp, hnone]

theorem setType_eq_ok_iff {target : TypeSlot} {ty : Ty} :
    t.setType target ty = .ok t' ↔ t.Effect (.setType target ty) .done t' := by
  constructor
  · intro h
    cases target with
    | member m =>
      simp only [setType] at h
      split_ifs at h with hm
      cases h
      exact .memberType (Nat.not_le.mp hm)
    | parameter m index =>
      simp only [setType] at h
      split at h
      · cases h
      · rename_i e he
        split_ifs at h with hi
        cases h
        exact .parameterType he (Nat.not_le.mp hi)
    | typeAlias a =>
      simp only [setType] at h
      split at h <;> cases h
  · rintro (_ | _)
    · rename_i hm
      simp [setType, Nat.not_le.mpr hm]
    · rename_i he hi
      simp [setType, he, Nat.not_le.mpr hi]

/-- A call succeeds exactly with the effects that are listed. -/
theorem step_eq_ok_iff {c : Call} {answer : Answer} :
    t.step c = .ok (answer, t') ↔ t.Effect c answer t' := by
  cases c with
  | addPackage decl =>
    cases h : t.packageIndex[decl.name]? with
    | none =>
      simp only [step, addPackage, h, Except.ok.injEq, Prod.mk.injEq]
      constructor
      · rintro ⟨rfl, rfl⟩
        exact .newPackage h
      · rintro (hknown | _)
        · rw [h] at hknown
          cases hknown
        · exact ⟨rfl, rfl⟩
    | some id =>
      simp only [step, addPackage, h, Except.ok.injEq, Prod.mk.injEq]
      constructor
      · rintro ⟨rfl, rfl⟩
        exact .knownPackage h
      · rintro (hknown | hfresh)
        · rw [h, Option.some.injEq] at hknown
          exact ⟨by rw [hknown], rfl⟩
        · rw [h] at hfresh
          cases hfresh
  | addClass package container decl =>
    simp only [step, bind_eq_ok_iff, Prod.exists, addClass_eq_ok_iff, pure, Except.pure,
      Except.ok.injEq, Prod.mk.injEq]
    constructor
    · rintro ⟨id, s, ⟨hadm, rfl, rfl⟩, rfl, rfl⟩
      exact .newClass hadm
    · rintro ⟨⟩
      rename_i hadm
      exact ⟨_, _, ⟨hadm, rfl, rfl⟩, rfl, rfl⟩
  | addMember c decl =>
    simp only [step, bind_eq_ok_iff, Prod.exists, addMember_eq_ok_iff, pure, Except.pure,
      Except.ok.injEq, Prod.mk.injEq]
    constructor
    · rintro ⟨id, s, ⟨hc, ty, hty, rfl, rfl⟩, rfl, rfl⟩
      exact .newMember hc hty
    · rintro ⟨⟩
      rename_i hc hty
      exact ⟨_, _, ⟨hc, _, hty, rfl, rfl⟩, rfl, rfl⟩
  | addAlias package decl =>
    simp only [step, bind_eq_ok_iff, Prod.exists, addAlias_eq_ok_iff, pure, Except.pure,
      Except.ok.injEq, Prod.mk.injEq]
    constructor
    · rintro ⟨id, s, ⟨hp, hfresh, rfl, rfl⟩, rfl, rfl⟩
      exact .newAlias hp hfresh
    · rintro ⟨⟩
      rename_i hp hfresh
      exact ⟨_, _, ⟨hp, hfresh, rfl, rfl⟩, rfl, rfl⟩
  | setType target ty =>
    simp only [step, bind_eq_ok_iff, setType_eq_ok_iff, pure, Except.pure, Except.ok.injEq,
      Prod.mk.injEq]
    constructor
    · rintro ⟨s, heff, rfl, rfl⟩
      exact heff
    · intro heff
      have hdone : Answer.done = answer := by cases heff <;> rfl
      subst hdone
      exact ⟨t', heff, rfl, rfl⟩

theorem call_of_effect {c : Call} {answer : Answer} (h : t.Effect c answer t') :
    t.call c = (.ok answer, t') := by
  rw [call, step_eq_ok_iff.mpr h]

theorem exists_effect_of_isOk {c : Call} (h : (t.call c).1.isOk = true) :
    ∃ answer t', t.Effect c answer t' := by
  rw [call] at h
  split at h
  · rename_i hstep
    exact ⟨_, _, step_eq_ok_iff.mp hstep⟩
  · cases h

theorem run_append (t : Tables) (calls calls' : List Call) :
    t.run (calls ++ calls') = (t.run calls).run calls' := by
  induction calls generalizing t with
  | nil => rfl
  | cons c cs ih => exact ih (t.call c).2

theorem answers_append (t : Tables) (calls calls' : List Call) :
    t.answers (calls ++ calls') = t.answers calls ++ (t.run calls).answers calls' := by
  induction calls generalizing t with
  | nil => rfl
  | cons c cs ih => exact congrArg ((t.call c).1 :: ·) (ih (t.call c).2)

/-- What every effect keeps, every call keeps: one that fails leaves the tables as they are. -/
theorem call_keeps {P : Tables → Prop}
    (keeps : ∀ {t t' : Tables} {c : Call} {answer : Answer}, P t → t.Effect c answer t' → P t')
    (c : Call) (h : P t) : P (t.call c).2 := by
  unfold call
  split
  · rename_i hstep
    exact keeps h (step_eq_ok_iff.mp hstep)
  · exact h

/-- What every effect keeps holds after every list of calls. -/
theorem run_keeps {P : Tables → Prop}
    (keeps : ∀ {t t' : Tables} {c : Call} {answer : Answer}, P t → t.Effect c answer t' → P t')
    (calls : List Call) (h : P t) : P (t.run calls) := by
  induction calls generalizing t with
  | nil => exact h
  | cons c cs ih => exact ih (call_keeps keeps c h)

end ApiSurface.Tables
