import ApiSurface.Proofs.Codebase.ByName

/-!
Declarations in another order.

Two declarations that follow each other and have nothing to do with each other (`Independent`) can
change places. Each then finds what it needs, and its name is as free as it was, so both succeed.
They get each other's numbers if they are of one kind, and the tables that they leave mirror those
of the first order. Calls that come later keep the tables mirrored when they use the new numbers.
-/

namespace ApiSurface

/-- Two numbers of one kind change places. -/
def Renumbering.exchange (k : ItemKind) (m n : Nat) : Renumbering :=
  fun k' => if k' = k then .swap m n else .refl Nat

namespace Renumbering

variable {k k' : ItemKind} {m n i : Nat}

theorem exchange_self : exchange k m n k = .swap m n := if_pos rfl

theorem exchange_left : exchange k m n k m = n := by
  rw [exchange_self, Equiv.swap_apply_left]

theorem exchange_right : exchange k m n k n = m := by
  rw [exchange_self, Equiv.swap_apply_right]

theorem exchange_same : exchange k m m = same := by
  funext k'
  rw [exchange, Equiv.swap_self]
  exact ite_self _

theorem exchange_eq_self (h : k' = k → i ≠ m ∧ i ≠ n) : exchange k m n k' i = i := by
  by_cases hk : k' = k
  · obtain ⟨hm, hn⟩ := h hk
    rw [hk, exchange_self, Equiv.swap_apply_of_ne_of_ne hm hn]
  · rw [exchange, if_neg hk]
    rfl

end Renumbering

namespace Tables

variable {ρ : Renumbering} {t t' : Tables}

/-- What a call declares does not depend on an item that it does not use. -/
theorem item?_of_items {x : Item} (ht : t.Linked) (ht' : t'.Linked) (h : t'.items = t.itemsWith x)
    {c : Call} (hc : ∀ r ∈ c.refs, r.2 < t.count r.1) :
    (t'.item? c).map Item.plain = (t.item? c).map Item.plain := by
  have hitem := (embeds_same fun _ => getElem?_of_items h).item? ht ht' hc
  simpa only [Call.renumber_same, Item.renumber_same] using hitem

/-- Two neighbouring numbers that are not compared themselves change places without changing the
order of others. -/
theorem swap_lt_swap {m n i j : Nat} (hn : n = m ∨ n = m + 1) (hlt : i < j)
    (hij : ¬ (i = m ∧ j = n)) : Equiv.swap m n i < Equiv.swap m n j := by
  rw [Equiv.swap_apply_def, Equiv.swap_apply_def]
  split_ifs <;> omega

section

variable {x y x' y' : Item} {t₁ t₂ t₁' t₂' : Tables} (h₁ : t₁.items = t.itemsWith x)
  (h₂ : t₂.items = t₁.itemsWith y) (h₁' : t₁'.items = t.itemsWith y')
  (h₂' : t₂'.items = t₁'.itemsWith x') (hx : x'.plain = x.plain) (hy : y'.plain = y.plain)
  (hxrefs : ∀ r ∈ x.refs, r.2 < t.count r.1) (hyrefs : ∀ r ∈ y.refs, r.2 < t.count r.1)

include h₁' hy in
theorem count_exchange (k : ItemKind) :
    t₁'.count k = t.count k + if k = y.kind then 1 else 0 := by
  rw [count_of_items h₁', Item.kind_eq_of_plain hy]

include h₁ h₁' hy in
/-- The second item gets the number that it has without the first one. -/
theorem exchange_count : Renumbering.exchange x.kind (t.count x.kind) (t₁'.count x.kind) y.kind
    (t₁.count y.kind) = t.count y.kind := by
  rw [count_of_items h₁, count_exchange h₁' hy]
  by_cases hk : y.kind = x.kind
  · rw [← hk, if_pos rfl, Renumbering.exchange_right]
  · rw [if_neg hk]
    exact Renumbering.exchange_eq_self fun heq => absurd heq hk

include h₁' hy in
/-- Items that refer to what was there before stay as they are. -/
theorem renumber_exchange {z : Item} (hz : ∀ r ∈ z.refs, r.2 < t.count r.1) :
    z.renumber (.exchange x.kind (t.count x.kind) (t₁'.count x.kind)) = z := by
  refine Item.renumber_eq_self fun r hr => Renumbering.exchange_eq_self fun hk => ?_
  have hlt := hz r hr
  rw [count_exchange h₁' hy, ← hk]
  omega

include h₁ h₂ h₁' h₂' hx hy hxrefs hyrefs in
theorem items_exchange (ht : t.Linked) (k : ItemKind) (n : Nat) :
    let ρ := Renumbering.exchange x.kind (t.count x.kind) (t₁'.count x.kind)
    (t₂'.items k)[ρ k n]?.map Item.plain = (t₂.items k)[n]?.map fun z => (z.renumber ρ).plain := by
  intro ρ
  have hxkind := Item.kind_eq_of_plain hx
  have hykind := Item.kind_eq_of_plain hy
  have hcount := count_of_items h₁ k
  have hcount' := count_exchange h₁' hy k
  rw [h₂, h₂', getElem?_itemsWith, getElem?_itemsWith, h₁, h₁', getElem?_itemsWith,
    getElem?_itemsWith, hxkind, hykind]
  -- the second item takes its new number, then the first one does, and others keep theirs
  by_cases hlast : k = y.kind ∧ n = t₁.count k
  · obtain ⟨rfl, rfl⟩ := hlast
    have hn : ρ y.kind (t₁.count y.kind) = t.count y.kind := exchange_count h₁ h₁' hy
    rw [if_pos rfl] at hcount'
    rw [hn, if_neg (by omega), if_pos ⟨rfl, rfl⟩, if_pos ⟨rfl, rfl⟩, Option.map_some,
      Option.map_some, renumber_exchange h₁' hy hyrefs, hy]
  · by_cases hfirst : k = x.kind ∧ n = t.count k
    · obtain ⟨rfl, rfl⟩ := hfirst
      have hn : ρ x.kind (t.count x.kind) = t₁'.count x.kind := Renumbering.exchange_left
      rw [hn, if_pos ⟨rfl, rfl⟩, if_neg hlast, if_pos ⟨rfl, rfl⟩, Option.map_some, Option.map_some,
        renumber_exchange h₁' hy hxrefs, hx]
    · have hx' : ¬ (k = x.kind ∧ n = t₁'.count k) := by
        rintro ⟨hk, rfl⟩
        rw [hcount'] at hfirst hlast
        rw [hcount, if_pos hk] at hlast
        split_ifs at hfirst hlast with hky
        · exact hlast ⟨hky, rfl⟩
        · exact hfirst ⟨hk, rfl⟩
      have hy' : ¬ (k = y.kind ∧ n = t.count k) := by
        rintro ⟨hk, rfl⟩
        rw [hcount] at hlast
        split_ifs at hlast with hkx
        · exact hfirst ⟨hkx, rfl⟩
        · exact hlast ⟨hk, rfl⟩
      have hn : ρ k n = n := by
        refine Renumbering.exchange_eq_self ?_
        rintro rfl
        exact ⟨fun heq => hfirst ⟨rfl, heq⟩, fun heq => hx' ⟨rfl, heq⟩⟩
      rw [hn, if_neg hx', if_neg hy', if_neg hlast, if_neg hfirst]
      cases hz : (t.items k)[n]? with
      | none => rfl
      | some z => rw [Option.map_some, Option.map_some, renumber_exchange h₁' hy (ht.ref_lt hz)]

include h₁ h₂ h₁' h₂' hx hy hxrefs hyrefs in
/-- Tables with `x` and then `y` are mirrored by those with `y` and then `x`, if these are in
different lists. -/
theorem mirrors_exchange (ht : t.Linked) (ht₂ : t₂.Linked) (ht₂' : t₂'.Linked)
    (hlists : ∀ l, x.list? = some l → y.list? ≠ some l) :
    t₂.Mirrors (.exchange x.kind (t.count x.kind) (t₁'.count x.kind)) t₂' := by
  have hcount := count_of_items h₁
  have hcount' := count_exchange h₁' hy
  constructor
  case linked => exact ht₂
  case linked' => exact ht₂'
  case count =>
    have hxkind := Item.kind_eq_of_plain hx
    intro k
    rw [count_of_items h₂, count_of_items h₂', hcount, hcount', hxkind]
    omega
  case fixes =>
    intro k n hn
    refine Renumbering.exchange_eq_self fun hk => ?_
    rw [count_of_items h₂, hcount, if_pos hk] at hn
    rw [hcount', ← hk]
    omega
  case items => exact items_exchange h₁ h₂ h₁' h₂' hx hy hxrefs hyrefs ht
  case ordered =>
    intro k i j l hi hj hlt
    by_cases hk : k = x.kind
    · subst hk
      rw [Renumbering.exchange_self]
      refine swap_lt_swap ?_ hlt ?_
      · rw [hcount']
        split_ifs <;> omega
      · rintro ⟨rfl, rfl⟩
        rw [hcount'] at hlt hj
        have hkind : x.kind = y.kind := by
          by_contra hne
          rw [if_neg hne] at hlt
          exact Nat.lt_irrefl _ hlt
        have hnext : t₁.count x.kind = t.count x.kind + 1 := by rw [hcount, if_pos rfl]
        rw [listOf?_of_items h₂, hnext, if_neg (by omega), listOf?_of_items h₁,
          if_pos ⟨rfl, rfl⟩] at hi
        rw [if_pos hkind, listOf?_of_items h₂, hnext, if_pos ⟨hkind, rfl⟩] at hj
        exact hlists l hi hj
    · rwa [Renumbering.exchange_eq_self fun heq => absurd heq hk,
        Renumbering.exchange_eq_self fun heq => absurd heq hk]

end

theorem find?_of_items {x : Item} (ht : t.Linked) (ht' : t'.Linked) (h : t'.items = t.itemsWith x)
    {k : ItemKind} {name : String} {n : Nat} :
    t'.find? k name = some n ↔
      t.find? k name = some n ∨ k = x.kind ∧ n = t.count k ∧ x.name? = some name := by
  rw [ht'.find?_eq_some_iff, ht.find?_eq_some_iff, h, getElem?_itemsWith]
  split_ifs with hnew
  · obtain ⟨rfl, rfl⟩ := hnew
    have hnone : (t.items x.kind)[t.count x.kind]? = none := List.getElem?_eq_none (Nat.le_refl _)
    simp [hnone]
  · exact (or_iff_left fun hx => hnew ⟨hx.1, hx.2.1⟩).symm

theorem lacks_of_plain {x x' : Item} (h : x'.plain = x.plain) (hx : t.Lacks x) : t.Lacks x' := by
  intro name hname
  rw [Item.kind_eq_of_plain h]
  exact hx name (Item.name?_eq_of_plain h ▸ hname)

/-- The name of `y` is free beside `x` if it was free and is not the name of `x`. -/
theorem lacks_of_items_iff {x y : Item} (ht : t.Linked) (ht' : t'.Linked)
    (h : t'.items = t.itemsWith x) : t'.Lacks y ↔
      t.Lacks y ∧ ∀ name, x.name? = some name → y.name? = some name → x.kind ≠ y.kind := by
  constructor
  · intro hy
    refine ⟨fun name hname => ?_, fun name hx hname hkind => ?_⟩
    · rw [Option.eq_none_iff_forall_ne_some]
      intro n hn
      have hlater := (find?_of_items ht ht' h).mpr (.inl hn)
      rw [hy name hname] at hlater
      cases hlater
    · have hfound := (find?_of_items ht ht' h).mpr (.inr ⟨hkind.symm, rfl, hx⟩)
      rw [hy name hname] at hfound
      cases hfound
  · rintro ⟨hy, hne⟩ name hname
    rw [Option.eq_none_iff_forall_ne_some]
    intro n hn
    rcases (find?_of_items ht ht' h).mp hn with hold | ⟨hkind, _, hx⟩
    · rw [hy name hname] at hold
      cases hold
    · exact hne name hx hname hkind.symm

/-- The number that a call answers. -/
def idOf (t : Tables) (c : Call) : Nat :=
  match (t.call c).1 with
  | .ok (.id n) => n
  | _ => 0

theorem idOf_eq {c : Call} {n : Nat} (h : (t.call c).1 = .ok (.id n)) : t.idOf c = n := by
  rw [idOf, h]

theorem idOf_of_effect {c : Call} {n : Nat} (h : t.Effect c (.id n) t') : t.idOf c = n := by
  rw [idOf, call_of_effect h]

/-- The numbers that the first of two calls answers before and after the second one change
places. -/
def exchange (t : Tables) (a b : Call) : Renumbering :=
  a.kind?.elim .same fun k => .exchange k (t.idOf a) ((t.call b).2.idOf a)

/-- Two declarations that have nothing to do with each other: they are not of the same package and
do not go to the same list, and the second one does not use the number that the first one answers.
The first one cannot use a number that is new when the second one answers it. -/
structure Independent (t : Tables) (a b : Call) : Prop where
  declares : a.kind?.isSome = true
  declares' : b.kind?.isSome = true
  names : ∀ d d', a = .addPackage d → b = .addPackage d' → d.name ≠ d'.name
  lists : ∀ l, a.list? = some l → b.list? ≠ some l
  unused : ∀ k n, a.kind? = some k → (t.call a).1 = .ok (.id n) → (k, n) ∉ b.refs

section

variable {a b : Call} {ra rb : Answer} {t₁ t₂ : Tables}

theorem find?_of_effect (ht : t.Linked) {c : Call} {answer : Answer} (h : t.Effect c answer t')
    {k : ItemKind} {name : String} {n : Nat} (hn : t.find? k name = some n) :
    t'.find? k name = some n := by
  have ht' := ht.effect h
  cases h.change with
  | known _ => exact hn
  | declare _ _ items => exact (find?_of_items ht ht' items).mpr (.inl hn)
  | retype _ _ _ => cases k <;> exact hn

/-- The second call does not use the first item, so that it needs nothing but what was there
before. -/
theorem Independent.refs_lt {x y : Item} (hind : t.Independent a b)
    (ha : t.Effect a (.id (t.count x.kind)) t₁) (item : t.item? a = some x)
    (items : t₁.items = t.itemsWith x) (item' : t₁.item? b = some y) :
    ∀ r ∈ y.refs, r.2 < t.count r.1 := by
  intro r hr
  obtain ⟨_, _, hrefs, hlt⟩ := item?_spec item'
  have hr₁ := hlt r hr
  rw [count_of_items items] at hr₁
  split_ifs at hr₁ with hk
  · have hne : r.2 ≠ t.count r.1 := by
      intro heq
      refine hind.unused r.1 r.2 (hk ▸ (item?_spec item).1) ?_ (hrefs ▸ hr)
      rw [call_of_effect ha, heq, hk]
    omega
  · exact hr₁

theorem Independent.effects_of_new {x y : Item} (hind : t.Independent a b) (ht : t.Linked)
    (ha : t.Effect a (.id (t.count x.kind)) t₁) (hb : t₁.Effect b (.id (t₁.count y.kind)) t₂)
    (item : t.item? a = some x) (fresh : t.Lacks x) (items : t₁.items = t.itemsWith x)
    (item' : t₁.item? b = some y) (fresh' : t₁.Lacks y) (items' : t₂.items = t₁.itemsWith y) :
    ∃ t₁' t₂',
      t.Effect b (b.renumberAnswer (t.exchange a b) (.id (t₁.count y.kind))) t₁' ∧
      t₁'.Effect a (a.renumberAnswer (t.exchange a b) (.id (t.count x.kind))) t₂' ∧
      t₂.Mirrors (t.exchange a b) t₂' := by
  have ht₁ := ht.effect ha
  have ht₂ := ht₁.effect hb
  obtain ⟨hkind, hlist, hrefs, hlt⟩ := item?_spec item
  obtain ⟨hkind', hlist', hrefs', _⟩ := item?_spec item'
  have hyrefs := hind.refs_lt ha item items item'
  obtain ⟨y', itemy, hy⟩ : ∃ y', t.item? b = some y' ∧ y'.plain = y.plain := by
    have hitem := item?_of_items ht ht₁ items (hrefs' ▸ hyrefs)
    rw [item'] at hitem
    exact Option.map_eq_some_iff.mp hitem.symm
  have hykind := Item.kind_eq_of_plain hy
  obtain ⟨hyfresh, hnames⟩ := (lacks_of_items_iff ht ht₁ items).mp fresh'
  obtain ⟨t₁', hb', items₁'⟩ := exists_effect itemy (lacks_of_plain hy hyfresh)
  have ht₁' := ht.effect hb'
  obtain ⟨x', itemx, hx⟩ : ∃ x', t₁'.item? a = some x' ∧ x'.plain = x.plain := by
    have hitem := item?_of_items ht ht₁' items₁' (hrefs ▸ hlt)
    rw [item] at hitem
    exact Option.map_eq_some_iff.mp hitem
  have hxkind := Item.kind_eq_of_plain hx
  have hxfresh : t₁'.Lacks x := by
    refine (lacks_of_items_iff ht ht₁' items₁').mpr ⟨fresh, fun name hyname hxname hkind => ?_⟩
    exact hnames name hxname (Item.name?_eq_of_plain hy ▸ hyname) (hykind ▸ hkind.symm)
  obtain ⟨t₂', ha', items₂'⟩ := exists_effect itemx (lacks_of_plain hx hxfresh)
  have hexchange : t.exchange a b =
      .exchange x.kind (t.count x.kind) (t₁'.count x.kind) := by
    rw [exchange, hkind, idOf_of_effect ha, call_of_effect hb', idOf_of_effect ha', hxkind]
    rfl
  refine ⟨t₁', t₂', ?_, ?_, ?_⟩
  · rw [hexchange, Call.renumberAnswer, hkind', Option.elim_some, exchange_count items items₁' hy]
    rwa [hykind] at hb'
  · rw [hexchange, Call.renumberAnswer, hkind, Option.elim_some, Renumbering.exchange_left]
    rwa [hxkind] at ha'
  · rw [hexchange]
    have ht₂' := ht₁'.effect ha'
    refine mirrors_exchange items items' items₁' items₂' hx hy hlt hyrefs ht ht₂ ht₂' ?_
    rw [← hlist, ← hlist']
    exact hind.lists

/-- Two independent declarations that succeed also do in the other order, with the numbers of one
order for those of the other. -/
theorem Independent.effects (hind : t.Independent a b) (ht : t.Linked) (ha : t.Effect a ra t₁)
    (hb : t₁.Effect b rb t₂) :
    ∃ t₁' t₂', t.Effect b (b.renumberAnswer (t.exchange a b) rb) t₁' ∧
      t₁'.Effect a (a.renumberAnswer (t.exchange a b) ra) t₂' ∧
      t₂.Mirrors (t.exchange a b) t₂' := by
  have ht₁ := ht.effect ha
  have ht₂ := ht₁.effect hb
  cases ha.change with
  | @known decl id known =>
    have hlater := find?_of_effect ht hb (k := .package) known
    have hsame : t.exchange (.addPackage decl) b = .same := by
      rw [exchange, idOf_of_effect ha, call_of_effect hb, idOf_of_effect (.knownPackage hlater)]
      exact Renumbering.exchange_same
    rw [hsame, Call.renumberAnswer_same, Call.renumberAnswer_same]
    exact ⟨t₂, t₂, hb, .knownPackage hlater, mirrors_same ht₂ ht₂ fun _ _ => rfl⟩
  | retype => cases hind.declares
  | @declare _ x _ item fresh items =>
    cases hb.change with
    | retype => cases hind.declares'
    | @known decl id known =>
      have hearlier : t.packageIndex[decl.name]? = some id := by
        rcases (find?_of_items ht ht₁ items (k := .package)).mp known with hold | ⟨hkind, _, hname⟩
        · exact hold
        · have ha := (item?_spec item).1
          rw [← hkind] at ha
          obtain ⟨d, rfl⟩ := Call.exists_addPackage ha
          cases item
          exact absurd (Option.some.inj hname) (hind.names d decl rfl rfl)
      have hsame : t.exchange a (.addPackage decl) = .same := by
        have hk := (item?_spec item).1
        rw [exchange, hk, call_of_effect (.knownPackage hearlier)]
        exact Renumbering.exchange_same
      rw [hsame, Call.renumberAnswer_same, Call.renumberAnswer_same]
      exact ⟨t, t₁, .knownPackage hearlier, ha, mirrors_same ht₁ ht₁ fun _ _ => rfl⟩
    | @declare _ y _ item' fresh' items' =>
      exact hind.effects_of_new ht ha hb item fresh items item' fresh' items'

theorem Independent.run (hind : t.Independent a b) (ht : t.Linked) {after : List Call}
    (hok : ∀ r ∈ t.answers (a :: b :: after), r.isOk = true) :
    let ρ := t.exchange a b
    let exchanged := b :: a :: after.map (Call.renumber ρ)
    (∀ r ∈ t.answers exchanged, r.isOk = true) ∧
      t.answers exchanged = ((t.call a).2.call b).1.map (b.renumberAnswer ρ) ::
        (t.call a).1.map (a.renumberAnswer ρ) :: ((t.call a).2.call b).2.renumberedAnswers ρ after ∧
      (t.run (a :: b :: after)).Mirrors ρ (t.run exchanged) := by
  intro ρ exchanged
  rw [answers, answers, List.forall_mem_cons, List.forall_mem_cons] at hok
  obtain ⟨hoka, hokb, hafter⟩ := hok
  obtain ⟨ra, t₁, ha⟩ := exists_effect_of_isOk hoka
  have hcalla := call_of_effect ha
  rw [hcalla] at hokb hafter
  obtain ⟨rb, t₂, hb⟩ := exists_effect_of_isOk hokb
  have hcallb := call_of_effect hb
  rw [hcallb] at hafter
  obtain ⟨t₁', t₂', hb', ha', hmirrors⟩ := hind.effects ht ha hb
  have hcallb' := call_of_effect hb'
  have hcalla' := call_of_effect ha'
  obtain ⟨hok', hanswers, hrun⟩ := hmirrors.run hafter
  simp only [exchanged, answers, Tables.run, hcalla, hcallb, hcallb', hcalla']
  refine ⟨?_, ?_, hrun⟩
  · rw [List.forall_mem_cons, List.forall_mem_cons]
    exact ⟨rfl, rfl, hok'⟩
  · rw [hanswers]
    rfl

end

end Tables

/-- In a run in which all calls succeed, two independent declarations that follow each other can
change places. With the new numbers in the calls that come later, all calls succeed again, with the
answers that they had but for new numbers, and the codebase is the same by name. -/
theorem Codebase.build_exchange (number : Nat) (settings : Settings) {before after : List Call}
    {a b : Call} (hok : ∀ r ∈ Tables.answers {} (before ++ a :: b :: after), r.isOk = true)
    (hind : (Tables.run {} before).Independent a b) :
    let t := Tables.run {} before
    let t₁ := (t.call a).2
    let ρ := t.exchange a b
    let exchanged := before ++ b :: a :: after.map (Call.renumber ρ)
    (∀ r ∈ Tables.answers {} exchanged, r.isOk = true) ∧
      Tables.answers {} exchanged =
        Tables.answers {} before ++ (t₁.call b).1.map (b.renumberAnswer ρ) ::
          (t.call a).1.map (a.renumberAnswer ρ) :: (t₁.call b).2.renumberedAnswers ρ after ∧
      (build number settings (before ++ a :: b :: after)).SameByName ρ
        (build number settings exchanged) := by
  intro t t₁ ρ exchanged
  rw [Tables.answers_append, List.forall_mem_append] at hok
  obtain ⟨hbefore, hafter⟩ := hok
  obtain ⟨hok', hanswers, hmirrors⟩ := hind.run (Tables.linked_run before) hafter
  rw [Tables.answers_append, hanswers]
  refine ⟨?_, rfl, sameByName_of_mirrors ?_⟩
  · rw [← hanswers]
    exact List.forall_mem_append.mpr ⟨hbefore, hok'⟩
  · rw [build, build, Tables.run_append, Tables.run_append]
    exact hmirrors

/-- Two nested classes, one of which extends the other and both of which get members later. -/
theorem Codebase.build_exchange_nested :
    let int : Ty := .primitive {} {} .int
    let extending (name : String) : Option ClassTy := some ⟨{}, {}, name, none, []⟩
    let before : List Call :=
      [.addPackage { name := "p" }, .addPackage { name := "q" },
        .addClass 0 none { name := "p.A", typeParameters := [{ name := "T" }] },
        .addClass 1 none { name := "q.B", superType := extending "p.A.In" }]
    let a : Call := .addClass 0 (some 0) { name := "p.A.In", superType := extending "q.B.In" }
    let b : Call := .addClass 1 (some 1) { name := "q.B.In" }
    let after : List Call :=
      [.addMember 2 { kind := .constructor, parameters := [{ ty := int }] },
        .addMember 3 { name := "m", ty := some int, parameters := [{ ty := .var { name := "T" } }] },
        .addClass 0 (some 2) { name := "p.A.In.Deep" }, .setType (.parameter 1 0) int]
    let exchanged : List Call :=
      before ++ [b, a,
        .addMember 3 { kind := .constructor, parameters := [{ ty := int }] },
        .addMember 2 { name := "m", ty := some int, parameters := [{ ty := .var { name := "T" } }] },
        .addClass 0 (some 3) { name := "p.A.In.Deep" }, .setType (.parameter 1 0) int]
    (∀ r ∈ Tables.answers {} (before ++ a :: b :: after), r.isOk = true) ∧
      (Tables.run {} before).Independent a b ∧
      (build 0 {} (before ++ a :: b :: after)).SameByName (.exchange .cls 2 3)
        (build 0 {} exchanged) := by
  intro int extending before a b after exchanged
  have hok : ∀ r ∈ Tables.answers {} (before ++ a :: b :: after), r.isOk = true := by
    decide +kernel
  have hida : (Tables.run {} before).idOf a = 2 := by decide +kernel
  have hind : (Tables.run {} before).Independent a b := by
    constructor
    case declares => rfl
    case declares' => rfl
    case names => exact fun _ _ ha => nomatch ha
    case lists =>
      rintro _ ⟨⟩ hl
      cases hl
    case unused =>
      rintro _ n ⟨⟩ hn
      obtain rfl := hida.symm.trans (Tables.idOf_eq hn)
      decide
  have hexchange : (Tables.run {} before).exchange a b = .exchange .cls 2 3 := by
    have hlater : ((Tables.run {} before).call b).2.idOf a = 3 := by decide +kernel
    exact congrArg₂ (Renumbering.exchange .cls) hida hlater
  have hsame := (build_exchange 0 {} hok hind).2.2
  rw [hexchange] at hsame
  exact ⟨hok, hind, hsame⟩

end ApiSurface
