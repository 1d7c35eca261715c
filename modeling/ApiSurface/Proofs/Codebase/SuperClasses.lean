import ApiSurface.Codebase.Hierarchy
import ApiSurface.Proofs.Codebase.Containment

/-!
The chain of super classes.

`Climbs` is the walk from class to super class without a budget: it ends at a class that has no
super class in the tables, or where it would come to a class that it has seen. In tables that were
built call by call there are never more classes to come than the budget of `superClasses` allows, so
`superClasses` is that walk.
-/

namespace ApiSurface.Tables

/-- The walk from `next` upwards that ends at a class of `seen`. -/
inductive Climbs (t : Tables) : List ClassId → Option ClassId → List ClassId → Prop where
  | top {seen : List ClassId} : Climbs t seen none []
  | again {seen : List ClassId} {c : ClassId} (known : c ∈ seen) : Climbs t seen (some c) []
  | up {seen chain : List ClassId} {c : ClassId} (fresh : c ∉ seen)
      (rest : Climbs t (c :: seen) (t.superClass? c) chain) : Climbs t seen (some c) (c :: chain)

variable {t : Tables}

theorem Climbs.unique {seen chain chain' : List ClassId} {next : Option ClassId}
    (h : t.Climbs seen next chain) (h' : t.Climbs seen next chain') : chain = chain' := by
  induction h generalizing chain' with
  | top =>
    cases h'
    rfl
  | again known =>
    cases h' with
    | again _ => rfl
    | up fresh _ => exact absurd known fresh
  | @up seen chain c fresh rest ih =>
    cases h' with
    | again known => exact absurd known fresh
    | up _ rest' => exact congrArg (c :: ·) (ih rest')

theorem Climbs.not_mem_seen {seen chain : List ClassId} {next : Option ClassId} {d : ClassId}
    (h : t.Climbs seen next chain) (hd : d ∈ chain) : d ∉ seen := by
  induction h with
  | top => cases hd
  | again _ => cases hd
  | @up seen chain c fresh rest ih =>
    rcases List.mem_cons.mp hd with rfl | hd
    · exact fresh
    · exact fun hseen => ih hd (List.mem_cons_of_mem c hseen)

theorem Climbs.nodup {seen chain : List ClassId} {next : Option ClassId}
    (h : t.Climbs seen next chain) : chain.Nodup := by
  induction h with
  | top => exact List.nodup_nil
  | again _ => exact List.nodup_nil
  | up fresh rest ih =>
    refine List.nodup_cons.mpr ⟨fun hmem => ?_, ih⟩
    exact rest.not_mem_seen hmem List.mem_cons_self

/-- Every class of the walk is the super class of the one before it. -/
theorem Climbs.isChain {seen chain : List ClassId} {next : Option ClassId} {c : ClassId}
    (h : t.Climbs seen next chain) (hc : t.superClass? c = next) :
    (c :: chain).IsChain fun a b => t.superClass? a = some b := by
  induction h generalizing c with
  | top => exact .singleton c
  | again _ => exact .singleton c
  | up _ _ ih => exact .cons_cons hc (ih rfl)

/-- A walk leaves no super class out: if only `next` is missing among the super classes of what was
seen, then nothing is missing when the walk has ended. -/
theorem Climbs.closed {seen chain : List ClassId} {next : Option ClassId} {a b : ClassId}
    (h : t.Climbs seen next chain)
    (hseen : ∀ a ∈ seen, ∀ b, t.superClass? a = some b → b ∈ seen ∨ next = some b)
    (ha : a ∈ seen ∨ a ∈ chain) (hab : t.superClass? a = some b) : b ∈ seen ∨ b ∈ chain := by
  induction h with
  | top =>
    rcases ha with ha | ha
    · exact .inl ((hseen a ha b hab).resolve_right (Option.some_ne_none b).symm)
    · cases ha
  | again known =>
    rcases ha with ha | ha
    · rcases hseen a ha b hab with hb | hb
      · exact .inl hb
      · exact .inl (Option.some.inj hb ▸ known)
    · cases ha
  | @up seen chain c fresh rest ih =>
    have hnext : ∀ a ∈ c :: seen, ∀ b, t.superClass? a = some b →
        b ∈ c :: seen ∨ t.superClass? c = some b := by
      intro a ha b hab
      rcases List.mem_cons.mp ha with rfl | ha
      · exact .inr hab
      · rcases hseen a ha b hab with hb | hb
        · exact .inl (List.mem_cons_of_mem c hb)
        · exact .inl (Option.some.inj hb ▸ List.mem_cons_self)
    have hmem : b ∈ c :: seen ∨ b ∈ chain := ih hnext (by grind)
    grind

theorem superClass?_lt (h : t.Linked) {c super : Nat} (hs : t.superClass? c = some super) :
    super < t.classes.size := by
  obtain ⟨ty, _, hindex⟩ := Option.bind_eq_some_iff.mp hs
  have hname := (h.classIndex ty.name super).mp hindex
  have hlt := (List.getElem?_eq_some_iff.mp hname).1
  rwa [length_classNames] at hlt

/-- A walk that starts in the tables stays in them. -/
theorem Climbs.lt_size {seen chain : List ClassId} {next : Option ClassId} {d : ClassId}
    (hclimbs : t.Climbs seen next chain) (h : t.Linked)
    (hnext : ∀ c, next = some c → c < t.classes.size) (hd : d ∈ chain) : d < t.classes.size := by
  induction hclimbs with
  | top => cases hd
  | again _ => cases hd
  | up _ _ ih =>
    rcases List.mem_cons.mp hd with rfl | hd
    · exact hnext d rfl
    · exact ih (fun _ hsuper => superClass?_lt h hsuper) hd

/-- Only classes of the tables have a super class. -/
theorem lt_of_superClass? {c super : Nat} (hs : t.superClass? c = some super) :
    c < t.classes.size := by
  by_contra hge
  have hnone : t.classes[c]? = none := Array.getElem?_eq_none (Nat.le_of_not_lt hge)
  rw [superClass?, classAt_eq_default hnone] at hs
  cases hs

/-- With a budget for all classes that were not seen, the chain is the whole walk. The induction is
on the budget; every step sees one more class. -/
theorem climbs_superChain (h : t.Linked) {n : Nat} {seen : List Nat} {next : Option Nat}
    (hnodup : seen.Nodup) (hseen : ∀ c ∈ seen, c < t.classes.size)
    (hnext : ∀ c, next = some c → c < t.classes.size) (hbudget : t.classes.size ≤ n + seen.length) :
    t.Climbs seen next (t.superChain n seen next) := by
  induction n generalizing seen next with
  | zero =>
    cases next with
    | none => exact .top
    | some c =>
      refine .again ?_
      by_contra hfresh
      have hle := length_le_of_nodup (List.nodup_cons.mpr ⟨hfresh, hnodup⟩)
        (List.forall_mem_cons.mpr ⟨hnext c rfl, hseen⟩)
      rw [List.length_cons] at hle
      omega
  | succ n ih =>
    cases next with
    | none => exact .top
    | some c =>
      by_cases hknown : c ∈ seen
      · have hstop : t.superChain (n + 1) seen (some c) = [] := by simp [superChain, hknown]
        rw [hstop]
        exact .again hknown
      · have hstep : t.superChain (n + 1) seen (some c) =
            c :: t.superChain n (c :: seen) (t.superClass? c) := by simp [superChain, hknown]
        rw [hstep]
        refine .up hknown (ih (List.nodup_cons.mpr ⟨hknown, hnodup⟩) ?_ ?_ ?_)
        · exact List.forall_mem_cons.mpr ⟨hnext c rfl, hseen⟩
        · intro d hd
          exact superClass?_lt h hd
        · rw [List.length_cons]
          omega

theorem climbs_superClasses (h : t.Linked) {c : Nat} (hc : c < t.classes.size) :
    t.Climbs [c] (t.superClass? c) (t.superClasses c) := by
  apply climbs_superChain h (List.nodup_singleton c)
  · intro d hd
    obtain rfl := List.mem_singleton.mp hd
    exact hc
  · intro d hd
    exact superClass?_lt h hd
  · rw [List.length_singleton]
    omega

/-- A walk that has seen the super class of `d` goes on as it does when `d` counts as seen too,
except that it may end with `d`. -/
theorem Climbs.avoid {seen seen' chain : List ClassId} {next : Option ClassId} {d super : ClassId}
    (h : t.Climbs seen next chain) (hd : t.superClass? d = some super) (hsuper : super ∈ seen)
    (hseen' : ∀ c, c ∈ seen' ↔ c = d ∨ c ∈ seen) :
    ∃ chain', t.Climbs seen' next chain' ∧ (chain = chain' ∨ chain = chain' ++ [d]) := by
  induction h generalizing seen' with
  | top => exact ⟨[], .top, .inl rfl⟩
  | again known => exact ⟨[], .again ((hseen' _).mpr (.inr known)), .inl rfl⟩
  | @up seen chain c fresh rest ih =>
    by_cases hcd : c = d
    · -- the class above `d` has been seen, so the walk ends here
      subst hcd
      rw [hd] at rest
      have hend := rest.unique (.again (List.mem_cons_of_mem _ hsuper))
      subst hend
      exact ⟨[], .again ((hseen' _).mpr (.inl rfl)), .inr rfl⟩
    · have hnext : ∀ b, b ∈ c :: seen' ↔ b = d ∨ b ∈ c :: seen := by
        intro b
        rw [List.mem_cons, List.mem_cons, hseen', or_left_comm]
      obtain ⟨chain', hchain', heq⟩ := ih (List.mem_cons_of_mem _ hsuper) hnext
      refine ⟨c :: chain', .up ?_ hchain', ?_⟩
      · rw [hseen', not_or]
        exact ⟨hcd, fresh⟩
      · rcases heq with rfl | rfl
        · exact .inl rfl
        · exact .inr rfl

/-- A class that is its own super class has no others. -/
theorem superClasses_eq_nil_of_self (h : t.Linked) {c : Nat} (hc : t.superClass? c = some c) :
    t.superClasses c = [] := by
  have hclimbs := climbs_superClasses h (lt_of_superClass? hc)
  rw [hc] at hclimbs
  exact hclimbs.unique (.again (List.mem_singleton_self c))

/-- The super classes of a class are its super class and the super classes of that. If these come
back to the class, they do so at their end. -/
theorem superClasses_of_superClass? (h : t.Linked) {d super : Nat}
    (hd : t.superClass? d = some super) (hne : super ≠ d) :
    ∃ chain, t.superClasses d = super :: chain ∧
      (t.superClasses super = chain ∨ t.superClasses super = chain ++ [d]) := by
  have habove := climbs_superClasses h (superClass?_lt h hd)
  have hseen : ∀ c, c ∈ [super, d] ↔ c = d ∨ c ∈ [super] := by
    intro c
    rw [List.mem_pair, List.mem_singleton, or_comm]
  obtain ⟨chain, hchain, heq⟩ := habove.avoid hd (List.mem_singleton_self super) hseen
  refine ⟨chain, ?_, heq⟩
  have hclimbs := climbs_superClasses h (lt_of_superClass? hd)
  rw [hd] at hclimbs
  refine hclimbs.unique (.up ?_ hchain)
  rwa [List.mem_singleton]

end ApiSurface.Tables
