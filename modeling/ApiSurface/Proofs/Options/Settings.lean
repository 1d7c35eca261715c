import ApiSurface.Options
import Mathlib.Data.List.Induction
import Mathlib.Data.List.Nodup
import Std.Data.TreeMap.Lemmas

/-!
Options as a record of the settings that made them.

A draft has under every name the value that was set last, and one duplicate for each setting whose
name was set before. Every setting keeps this up. Where there is no duplicate, no value was ever
replaced: each setting can be read back, and the order in which they were made does not show.
-/

namespace ApiSurface.Options

variable {κ : Type} {Value : κ → Type}

/-- The names that stand at an earlier place of the list, too, once for each place where they come
again. -/
def repeatedNames (names : List String) : List String :=
  (names.zipIdx.filter fun (name, place) => name ∈ names.take place).map Prod.fst

theorem repeatedNames_concat (names : List String) (name : String) :
    repeatedNames (names ++ [name]) =
      repeatedNames names ++ if name ∈ names then [name] else [] := by
  -- What stands before an old place does not change when a name is added behind all of them.
  have hbefore : ∀ p ∈ names.zipIdx,
      decide (p.1 ∈ (names ++ [name]).take p.2) = decide (p.1 ∈ names.take p.2) := by
    intro p hp
    have hplace : p.2 ≤ names.length := by
      have h := (List.mem_zipIdx hp).2.1
      omega
    rw [List.take_append_of_le_length hplace]
  unfold repeatedNames
  rw [List.zipIdx_append, List.filter_append, List.map_append, List.filter_congr hbefore]
  by_cases hname : name ∈ names <;> simp [hname]

/-- No name comes again exactly if all names are different. -/
theorem repeatedNames_eq_nil_iff (names : List String) :
    repeatedNames names = [] ↔ names.Nodup := by
  induction names using List.reverseRecOn with
  | nil => simp [repeatedNames]
  | append_singleton names name ih =>
    rw [repeatedNames_concat, List.append_eq_nil_iff, ih, ← List.concat_eq_append,
      List.nodup_concat]
    by_cases hname : name ∈ names <;> simp [hname]

/-- The value of a setting with its kind. -/
def entryOf (s : Setting Value) : Sigma Value := ⟨s.key.kind, s.value⟩

/-- The value that was set last under the name. -/
def lastSet? (settings : List (Setting Value)) (name : String) : Option (Sigma Value) :=
  (settings.reverse.find? (·.key.name == name)).map entryOf

section LastSet

variable (settings : List (Setting Value)) (s : Setting Value) (name : String)

theorem lastSet?_concat :
    lastSet? (settings ++ [s]) name =
      if s.key.name = name then some (entryOf s) else lastSet? settings name := by
  unfold lastSet?
  rw [List.reverse_append, List.reverse_singleton, List.singleton_append]
  by_cases hname : s.key.name = name
  · rw [List.find?_cons_of_pos (by simpa using hname), if_pos hname, Option.map_some]
  · rw [List.find?_cons_of_neg (by simpa using hname), if_neg hname]

theorem isSome_lastSet?_iff :
    (lastSet? settings name).isSome = true ↔ ∃ s ∈ settings, s.key.name = name := by
  simp [lastSet?, List.find?_isSome]

end LastSet

variable {settings : List (Setting Value)}

/-- Where all names are different, the last setting of a name is its only one. -/
theorem lastSet?_of_mem (hnames : (settings.map (·.key.name)).Nodup) {s : Setting Value}
    (hs : s ∈ settings) : lastSet? settings s.key.name = some (entryOf s) := by
  have hsome := (isSome_lastSet?_iff settings s.key.name).mpr ⟨s, hs, rfl⟩
  obtain ⟨last, hlast⟩ : ∃ last, settings.reverse.find? (·.key.name == s.key.name) = some last := by
    rwa [lastSet?, Option.isSome_map, Option.isSome_iff_exists] at hsome
  have hmem : last ∈ settings := List.mem_reverse.mp (List.mem_of_find?_eq_some hlast)
  have hname : last.key.name = s.key.name := by
    have h := List.find?_some hlast
    exact beq_iff_eq.mp h
  obtain rfl : last = s := List.inj_on_of_nodup_map hnames hmem hs hname
  rw [lastSet?, hlast, Option.map_some]

namespace Draft

/-- The draft has the last value of every name, and a duplicate for every name that came again. -/
structure Records (d : Draft Value) (settings : List (Setting Value)) : Prop where
  values : ∀ name, d.values[name]? = lastSet? settings name
  duplicates : d.duplicates.toList = repeatedNames (settings.map (·.key.name))

theorem set_eq (d : Draft Value) (s : Setting Value) :
    d.set s = ⟨d.values.insert s.key.name (entryOf s),
      if d.values.contains s.key.name then d.duplicates.push s.key.name else d.duplicates⟩ := by
  unfold set
  rw [← Std.TreeMap.containsThenInsert_fst, ← Std.TreeMap.containsThenInsert_snd]
  rfl

variable {d : Draft Value}

theorem Records.contains_iff (h : d.Records settings) (name : String) :
    d.values.contains name = true ↔ name ∈ settings.map (·.key.name) := by
  rw [Std.TreeMap.contains_eq_isSome_getElem?, h.values, isSome_lastSet?_iff, List.mem_map]

theorem Records.set (h : d.Records settings) (s : Setting Value) :
    (d.set s).Records (settings ++ [s]) := by
  rw [set_eq]
  constructor
  · intro name
    rw [Std.TreeMap.getElem?_insert, lastSet?_concat, h.values]
    simp only [Std.compare_eq_iff_eq]
  · -- The map knows a name exactly if an earlier setting had it.
    rw [List.map_append, List.map_singleton, repeatedNames_concat, ← h.duplicates]
    by_cases hknown : d.values.contains s.key.name = true
    · rw [if_pos hknown, if_pos ((h.contains_iff _).mp hknown), Array.toList_push]
    · rw [if_neg hknown, if_neg (mt (h.contains_iff _).mpr hknown), List.append_nil]

end Draft

theorem records_draft (settings : List (Setting Value)) : (draft settings).Records settings := by
  -- From the end of the list, where the last setting is made.
  induction settings using List.reverseRecOn with
  | nil => exact ⟨fun _ => Std.TreeMap.getElem?_emptyc, rfl⟩
  | append_singleton settings s ih =>
    rw [draft, List.foldl_append]
    exact ih.set s

theorem isEmpty_duplicates_iff (settings : List (Setting Value)) :
    (draft settings).duplicates.isEmpty = true ↔ (settings.map (·.key.name)).Nodup := by
  rw [← repeatedNames_eq_nil_iff, ← (records_draft settings).duplicates, Array.isEmpty_iff,
    Array.toList_eq_nil_iff]

variable {description : String}

theorem build_of_nodup (hnames : (settings.map (·.key.name)).Nodup) :
    build description settings = .ok ⟨description, (draft settings).values⟩ :=
  if_pos ((isEmpty_duplicates_iff settings).mpr hnames)

theorem build_of_not_nodup (hnames : ¬(settings.map (·.key.name)).Nodup) :
    build description settings = .error (.duplicateOptionKey
      (", ".intercalate (repeatedNames (settings.map (·.key.name))) ++
        " in options '" ++ description ++ "'")) := by
  rw [← (records_draft settings).duplicates]
  exact if_neg (mt (isEmpty_duplicates_iff settings).mp hnames)

/-- The value was set under the name of the key, with the kind of the key. -/
def WasSet (settings : List (Setting Value)) (key : OptionSpec Value) (v : Value key.kind) : Prop :=
  ∃ s ∈ settings, s.key.name = key.name ∧ entryOf s = ⟨key.kind, v⟩

/-- What was set can be read, and nothing else: a key whose name was not set, or was set with
another kind of value, has its fallback. -/
structure Holds [DecidableEq κ] (o : Options Value) (settings : List (Setting Value)) : Prop where
  contains_iff : ∀ key, o.contains key = true ↔ ∃ s ∈ settings, s.key.name = key.name
  get_of_set : ∀ key v, WasSet settings key v → o.get key = v
  get_otherwise : ∀ key, (∀ v, ¬WasSet settings key v) → o.get key = key.fallback

variable [DecidableEq κ] {o o' : Options Value}

theorem get_of_values {key : OptionSpec Value} {v : Value key.kind}
    (h : o.values[key.name]? = some ⟨key.kind, v⟩) : o.get key = v := by
  unfold get
  rw [h]
  exact dif_pos rfl

theorem get_eq_fallback {key : OptionSpec Value}
    (h : ∀ v, o.values[key.name]? ≠ some ⟨key.kind, v⟩) : o.get key = key.fallback := by
  unfold get
  split
  case h_1 kind value hvalue =>
    refine dif_neg ?_
    rintro rfl
    exact h value hvalue
  case h_2 => rfl

theorem holds_draft (hnames : (settings.map (·.key.name)).Nodup) :
    Holds ⟨description, (draft settings).values⟩ settings := by
  have hvalues := (records_draft settings).values
  refine ⟨fun key => ?_, ?_, ?_⟩
  · rw [contains, (records_draft settings).contains_iff, List.mem_map]
  · rintro key v ⟨s, hs, hname, hentry⟩
    refine get_of_values ?_
    rw [hvalues, ← hname, lastSet?_of_mem hnames hs, hentry]
  · intro key hunset
    refine get_eq_fallback fun v hv => ?_
    rw [hvalues] at hv
    obtain ⟨s, hs, hname⟩ := (isSome_lastSet?_iff settings key.name).mp (by rw [hv]; rfl)
    -- The value found is that of the only setting of the name, so it was set with this kind.
    rw [← hname, lastSet?_of_mem hnames hs] at hv
    exact hunset v ⟨s, hs, hname, Option.some.inj hv⟩

theorem Holds.perm (h : o.Holds settings) {settings' : List (Setting Value)}
    (hperm : settings.Perm settings') : o.Holds settings' := by
  have hset : ∀ key v, WasSet settings' key v ↔ WasSet settings key v := by
    intro key v
    simp only [WasSet, hperm.mem_iff]
  refine ⟨fun key => ?_, fun key v hv => ?_, fun key hv => ?_⟩
  · simp only [h.contains_iff, hperm.mem_iff]
  · exact h.get_of_set key v ((hset key v).mp hv)
  · exact h.get_otherwise key fun v => mt (hset key v).mpr (hv v)

/-- The settings say all that can be read. -/
theorem Holds.same (h : o.Holds settings) (h' : o'.Holds settings) (key : OptionSpec Value) :
    o'.contains key = o.contains key ∧ o'.get key = o.get key := by
  constructor
  · rw [Bool.eq_iff_iff, h.contains_iff, h'.contains_iff]
  · by_cases hset : ∃ v, WasSet settings key v
    · obtain ⟨v, hv⟩ := hset
      rw [h.get_of_set key v hv, h'.get_of_set key v hv]
    · rw [not_exists] at hset
      rw [h.get_otherwise key hset, h'.get_otherwise key hset]

/-- Building succeeds exactly if no name is set twice, and otherwise lists every name that comes
again. The options have what was set and nothing else, in whatever order it was set. -/
theorem build_records (description : String) (settings : List (Setting Value)) :
    let names := settings.map (·.key.name)
    ((∃ o, build description settings = .ok o) ↔ names.Nodup) ∧
    (∀ e, build description settings = .error e ↔ ¬names.Nodup ∧
      e = .duplicateOptionKey
        (", ".intercalate (repeatedNames names) ++ " in options '" ++ description ++ "'")) ∧
    ∀ o, build description settings = .ok o →
      o.description = description ∧ o.Holds settings ∧
      ∀ description' settings', settings'.Perm settings →
        ∃ o', build description' settings' = .ok o' ∧
          ∀ key, o'.contains key = o.contains key ∧ o'.get key = o.get key := by
  intro names
  by_cases hnames : names.Nodup
  · rw [build_of_nodup hnames]
    refine ⟨iff_of_true ⟨_, rfl⟩ hnames, ?_, ?_⟩
    · intro e
      exact iff_of_false nofun fun h => h.1 hnames
    · rintro _ ⟨⟩
      refine ⟨rfl, holds_draft hnames, fun description' settings' hperm => ?_⟩
      have hnames' : (settings'.map (·.key.name)).Nodup := (hperm.map _).nodup_iff.mpr hnames
      refine ⟨_, build_of_nodup hnames', ?_⟩
      exact (holds_draft hnames).same ((holds_draft hnames').perm hperm)
  · rw [build_of_not_nodup hnames]
    refine ⟨iff_of_false ?_ hnames, ?_, nofun⟩
    · rintro ⟨o, ⟨⟩⟩
    · intro e
      rw [Except.error.injEq, eq_comm, and_iff_right hnames]

/-- A key of the same name and another kind reads its fallback, whichever setting came first. Of
five settings under two names, three come again. -/
theorem build_records_shadowed :
    let depth : OptionSpec ValueKind.Value := ⟨"depth", .uint, (8 : Nat), "Maximum nesting depth."⟩
    let shadow : OptionSpec ValueKind.Value := ⟨"depth", .bool, true, "Same name as depth."⟩
    let strict : OptionSpec ValueKind.Value := ⟨"strict", .bool, false, "Reject lenient input."⟩
    (∃ o o' : Options ValueKind.Value,
      build "typed" [⟨depth, (3 : Nat)⟩, ⟨strict, true⟩] = .ok o ∧
      build "swapped" [⟨strict, true⟩, ⟨depth, (3 : Nat)⟩] = .ok o' ∧
      o.get depth = (3 : Nat) ∧ o.contains shadow = true ∧ o.get shadow = true ∧
      o'.get depth = (3 : Nat) ∧ o'.get shadow = true) ∧
    build "clash" [⟨depth, (3 : Nat)⟩, ⟨shadow, false⟩, ⟨strict, true⟩, ⟨depth, (4 : Nat)⟩,
        ⟨strict, false⟩] =
      .error (.duplicateOptionKey "depth, depth, strict in options 'clash'") := by
  intro depth shadow strict
  obtain ⟨hok, _, hread⟩ := build_records "typed" [⟨depth, (3 : Nat)⟩, ⟨strict, true⟩]
  obtain ⟨o, ho⟩ := hok.mpr (by decide)
  obtain ⟨_, hholds, horder⟩ := hread o ho
  obtain ⟨o', ho', hsame⟩ :=
    horder "swapped" [⟨strict, true⟩, ⟨depth, (3 : Nat)⟩] (List.Perm.swap ..)
  have hdepth : o.get depth = (3 : Nat) :=
    hholds.get_of_set depth (3 : Nat) ⟨_, List.mem_cons_self, rfl, rfl⟩
  have hcontains : o.contains shadow = true :=
    (hholds.contains_iff shadow).mpr ⟨_, List.mem_cons_self, rfl⟩
  have hshadow : o.get shadow = true := by
    refine hholds.get_otherwise shadow ?_
    rintro v ⟨s, hs, hname, hentry⟩
    rcases List.mem_pair.mp hs with rfl | rfl
    · cases hentry
    · exact absurd hname (by decide)
  refine ⟨⟨o, o', ho, ho', hdepth, hcontains, hshadow, ?_, ?_⟩, ?_⟩
  · rw [(hsame depth).2, hdepth]
  · rw [(hsame shadow).2, hshadow]
  · exact ((build_records "clash" _).2.1 _).mpr ⟨by decide, by decide +kernel⟩

end ApiSurface.Options
