import ApiSurface.Ty.Basic

/-!
Equality of type trees, identities included, is decidable.

A shared tree is small in memory and can be huge when it is written out, so values that are one
object in memory are equal without a look inside. Other instances already differ in the identity of
the root.
-/

namespace ApiSurface

mutual

def Ty.beq : Ty → Ty → Bool
  | .primitive i m k, .primitive i' m' k' => i == i' && m == m' && k == k'
  | .array i m v c, .array i' m' v' c' => i == i' && m == m' && v == v' && c.beq c'
  | .cls c, .cls c' => c.beq c'
  | .lambda s r c, .lambda s' r' c' => s == s' && r == r' && c.beq c'
  | .var v, .var v' => v == v'
  | .wildcard i m u l, .wildcard i' m' u' l' =>
    i == i' && m == m' && Ty.beqOption u u' && Ty.beqOption l l'
  | _, _ => false

def Ty.beqOption : Option Ty → Option Ty → Bool
  | none, none => true
  | some t, some t' => t.beq t'
  | _, _ => false

def Ty.beqList : List Ty → List Ty → Bool
  | [], [] => true
  | t :: ts, t' :: ts' => t.beq t' && Ty.beqList ts ts'
  | _, _ => false

def ClassTy.beq : ClassTy → ClassTy → Bool
  | ⟨i, m, n, o, as⟩, ⟨i', m', n', o', as'⟩ =>
    i == i' && m == m' && n == n' && ClassTy.beqOption o o' && Ty.beqList as as'

def ClassTy.beqOption : Option ClassTy → Option ClassTy → Bool
  | none, none => true
  | some c, some c' => c.beq c'
  | _, _ => false

end

mutual

theorem Ty.beq_iff : ∀ t t' : Ty, t.beq t' = true ↔ t = t'
  | .primitive i m k, t' => by
    cases t' <;> simp [Ty.beq, and_assoc]
  | .array i m v c, t' => by
    cases t' <;> simp [Ty.beq, Ty.beq_iff c, and_assoc]
  | .cls c, t' => by
    cases t' <;> simp [Ty.beq, ClassTy.beq_iff c]
  | .lambda s r c, t' => by
    cases t' <;> simp [Ty.beq, ClassTy.beq_iff c, and_assoc]
  | .var v, t' => by
    cases t' <;> simp [Ty.beq]
  | .wildcard i m u l, t' => by
    cases t' <;> simp [Ty.beq, Ty.beqOption_iff u, Ty.beqOption_iff l, and_assoc]

theorem Ty.beqOption_iff : ∀ t t' : Option Ty, Ty.beqOption t t' = true ↔ t = t'
  | none, t' => by cases t' <;> simp [Ty.beqOption]
  | some t, t' => by cases t' <;> simp [Ty.beqOption, Ty.beq_iff t]

theorem Ty.beqList_iff : ∀ ts ts' : List Ty, Ty.beqList ts ts' = true ↔ ts = ts'
  | [], ts' => by cases ts' <;> simp [Ty.beqList]
  | t :: ts, ts' => by cases ts' <;> simp [Ty.beqList, Ty.beq_iff t, Ty.beqList_iff ts]

theorem ClassTy.beq_iff : ∀ c c' : ClassTy, c.beq c' = true ↔ c = c'
  | ⟨i, m, n, o, as⟩, ⟨i', m', n', o', as'⟩ => by
    simp [ClassTy.beq, ClassTy.beqOption_iff o, Ty.beqList_iff as, and_assoc]

theorem ClassTy.beqOption_iff : ∀ c c' : Option ClassTy, ClassTy.beqOption c c' = true ↔ c = c'
  | none, c' => by cases c' <;> simp [ClassTy.beqOption]
  | some c, c' => by cases c' <;> simp [ClassTy.beqOption, ClassTy.beq_iff c]

end

instance : DecidableEq Ty := fun t t' =>
  withPtrEqDecEq t t' fun _ => decidable_of_iff _ (Ty.beq_iff t t')

instance : DecidableEq ClassTy := fun c c' =>
  withPtrEqDecEq c c' fun _ => decidable_of_iff _ (ClassTy.beq_iff c c')

end ApiSurface
