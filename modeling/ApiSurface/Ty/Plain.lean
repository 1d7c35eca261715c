import ApiSurface.Ty.Equality

/-!
The content of type trees: what is left of a tree without its identities.

`Ty.alike` compares contents without forming them and passes over parts that both trees share;
`Ty.alike_iff` says that it compares plain forms.
-/

namespace ApiSurface

mutual

/-- The tree without its identities. -/
def Ty.plain : Ty → Ty
  | .primitive _ m k => .primitive {} m.plain k
  | .array _ m v c => .array {} m.plain v c.plain
  | .cls c => .cls c.plain
  | .lambda s r c => .lambda s r c.plain
  | .var v => .var ⟨{}, v.mods.plain, v.name⟩
  | .wildcard _ m u l => .wildcard {} m.plain (Ty.plainOption u) (Ty.plainOption l)

def Ty.plainOption : Option Ty → Option Ty
  | none => none
  | some t => some t.plain

def Ty.plainList : List Ty → List Ty
  | [] => []
  | t :: ts => t.plain :: Ty.plainList ts

/-- The class type without its identities. -/
def ClassTy.plain : ClassTy → ClassTy
  | ⟨_, m, n, o, as⟩ => ⟨{}, m.plain, n, ClassTy.plainOption o, Ty.plainList as⟩

def ClassTy.plainOption : Option ClassTy → Option ClassTy
  | none => none
  | some c => some c.plain

end

theorem Ty.plainOption_eq (t : Option Ty) : Ty.plainOption t = t.map Ty.plain := by
  cases t <;> rfl

theorem Ty.plainList_eq (ts : List Ty) : Ty.plainList ts = ts.map Ty.plain := by
  induction ts with
  | nil => rfl
  | cons t ts ih => simp [Ty.plainList, ih]

theorem ClassTy.plainOption_eq (c : Option ClassTy) :
    ClassTy.plainOption c = c.map ClassTy.plain := by
  cases c <;> rfl

mutual

/-- Whether two trees have the same content. Where both hold the same instance, they do. -/
def Ty.alike (t t' : Ty) : Bool :=
  t = t' || match t, t' with
    | .primitive _ m k, .primitive _ m' k' => m.plain = m'.plain && k = k'
    | .array _ m v c, .array _ m' v' c' => m.plain = m'.plain && v = v' && c.alike c'
    | .cls c, .cls c' => c.alike c'
    | .lambda s r c, .lambda s' r' c' => s = s' && r = r' && c.alike c'
    | .var v, .var v' => v.mods.plain = v'.mods.plain && v.name = v'.name
    | .wildcard _ m u l, .wildcard _ m' u' l' =>
      m.plain = m'.plain && Ty.alikeOption u u' && Ty.alikeOption l l'
    | _, _ => false

def Ty.alikeOption : Option Ty → Option Ty → Bool
  | none, none => true
  | some t, some t' => t.alike t'
  | _, _ => false

def Ty.alikeList : List Ty → List Ty → Bool
  | [], [] => true
  | t :: ts, t' :: ts' => t.alike t' && Ty.alikeList ts ts'
  | _, _ => false

/-- Whether two class types have the same content. -/
def ClassTy.alike (c c' : ClassTy) : Bool :=
  c = c' || match c, c' with
    | ⟨_, m, n, o, as⟩, ⟨_, m', n', o', as'⟩ =>
      m.plain = m'.plain && n = n' && ClassTy.alikeOption o o' && Ty.alikeList as as'

def ClassTy.alikeOption : Option ClassTy → Option ClassTy → Bool
  | none, none => true
  | some c, some c' => c.alike c'
  | _, _ => false

end

/-- A comparison of images may first compare the values themselves. -/
theorem eq_or_iff {α β : Type} {f : α → β} {a a' : α} {p : Prop} (h : p ↔ f a = f a') :
    a = a' ∨ p ↔ f a = f a' :=
  ⟨fun e => e.elim (congrArg f) h.1, fun e => .inr (h.2 e)⟩

mutual

theorem Ty.alike_iff : ∀ t t' : Ty, t.alike t' = true ↔ t.plain = t'.plain
  | .primitive i m k, t' => by
    rw [Ty.alike.eq_def, Bool.or_eq_true, decide_eq_true_iff]
    apply eq_or_iff
    cases t' <;> simp [Ty.plain]
  | .array i m v c, t' => by
    rw [Ty.alike.eq_def, Bool.or_eq_true, decide_eq_true_iff]
    apply eq_or_iff
    cases t' <;> simp [Ty.plain, Ty.alike_iff c, and_assoc]
  | .cls c, t' => by
    rw [Ty.alike.eq_def, Bool.or_eq_true, decide_eq_true_iff]
    apply eq_or_iff
    cases t' <;> simp [Ty.plain, ClassTy.alike_iff c]
  | .lambda s r c, t' => by
    rw [Ty.alike.eq_def, Bool.or_eq_true, decide_eq_true_iff]
    apply eq_or_iff
    cases t' <;> simp [Ty.plain, ClassTy.alike_iff c, and_assoc]
  | .var v, t' => by
    rw [Ty.alike.eq_def, Bool.or_eq_true, decide_eq_true_iff]
    apply eq_or_iff
    cases t' <;> simp [Ty.plain]
  | .wildcard i m u l, t' => by
    rw [Ty.alike.eq_def, Bool.or_eq_true, decide_eq_true_iff]
    apply eq_or_iff
    cases t' <;> simp [Ty.plain, Ty.alikeOption_iff u, Ty.alikeOption_iff l, and_assoc]

theorem Ty.alikeOption_iff :
    ∀ t t' : Option Ty, Ty.alikeOption t t' = true ↔ Ty.plainOption t = Ty.plainOption t'
  | none, t' => by cases t' <;> simp [Ty.alikeOption, Ty.plainOption]
  | some t, t' => by cases t' <;> simp [Ty.alikeOption, Ty.plainOption, Ty.alike_iff t]

theorem Ty.alikeList_iff :
    ∀ ts ts' : List Ty, Ty.alikeList ts ts' = true ↔ Ty.plainList ts = Ty.plainList ts'
  | [], ts' => by cases ts' <;> simp [Ty.alikeList, Ty.plainList]
  | t :: ts, ts' => by
    cases ts' <;> simp [Ty.alikeList, Ty.plainList, Ty.alike_iff t, Ty.alikeList_iff ts]

theorem ClassTy.alike_iff : ∀ c c' : ClassTy, c.alike c' = true ↔ c.plain = c'.plain
  | ⟨i, m, n, o, as⟩, ⟨i', m', n', o', as'⟩ => by
    rw [ClassTy.alike, Bool.or_eq_true, decide_eq_true_iff]
    apply eq_or_iff
    simp [ClassTy.plain, ClassTy.alikeOption_iff o, Ty.alikeList_iff as, and_assoc]

theorem ClassTy.alikeOption_iff : ∀ c c' : Option ClassTy,
    ClassTy.alikeOption c c' = true ↔ ClassTy.plainOption c = ClassTy.plainOption c'
  | none, c' => by cases c' <;> simp [ClassTy.alikeOption, ClassTy.plainOption]
  | some c, c' => by
    cases c' <;> simp [ClassTy.alikeOption, ClassTy.plainOption, ClassTy.alike_iff c]

end

end ApiSurface
