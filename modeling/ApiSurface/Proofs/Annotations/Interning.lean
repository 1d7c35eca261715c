import ApiSurface.Proofs.Annotations.Transparency
import Mathlib.Data.Finset.Card
import Mathlib.Data.Finset.Dedup
import Mathlib.Data.Prod.Lex
import Mathlib.Data.String.Basic

/-!
One entry for each identity.

A cache never holds two entries of one identity, and its entries stay in their slots. So two
look-ups give the same entry exactly if the annotations have the same identity, and the cache grows
by one entry for each identity that is new. Under filters the relevant attributes are put in order,
so an identity is a name with a multiset of attributes.
-/

namespace ApiSurface

namespace Attribute

variable {a b : Attribute} {as bs : List Attribute}

/-- Attributes in order: by name, and by value where names are equal. -/
def Before (a b : Attribute) : Prop := a.name < b.name ∨ a.name = b.name ∧ a.value ≤ b.value

theorem isLE_compare_iff : (compare a b).isLE = true ↔ a.Before b := by
  show ((compare a.name b.name).then (compare a.value b.value)).isLE = true ↔ a.Before b
  rw [Before]
  cases hname : compare a.name b.name with
  | lt => exact iff_of_true rfl (.inl (compare_lt_iff_lt.mp hname))
  | eq =>
    rw [compare_eq_iff_eq.mp hname, or_iff_right (lt_irrefl _), and_iff_right rfl,
      ← compare_le_iff_le]
    cases compare a.value b.value <;> decide
  | gt =>
    have hgt := compare_gt_iff_gt.mp hname
    refine iff_of_false Bool.false_ne_true ?_
    rintro (hlt | ⟨heq, _⟩)
    · exact lt_asymm hlt hgt
    · exact hgt.ne' heq

theorem before_iff : a.Before b ↔ toLex (a.name, a.value) ≤ toLex (b.name, b.value) := by
  rw [Prod.Lex.toLex_le_toLex, Before]

theorem pairwise_sort (as : List Attribute) : (sort as).Pairwise Before := by
  refine (List.pairwise_mergeSort ?_ ?_ as).imp isLE_compare_iff.mp
  · intro a b c
    simp only [isLE_compare_iff, before_iff]
    exact le_trans
  · intro a b
    simp only [Bool.or_eq_true, isLE_compare_iff, before_iff]
    exact le_total _ _

theorem sort_eq_of_pairwise (h : as.Pairwise Before) : sort as = as :=
  List.mergeSort_of_pairwise (h.imp isLE_compare_iff.mpr)

/-- Attributes can be put in order in one way only. -/
theorem eq_of_perm (has : as.Pairwise Before) (hbs : bs.Pairwise Before) (h : as.Perm bs) :
    as = bs := by
  refine List.Perm.eq_of_pairwise ?_ has hbs h
  rintro ⟨n, v⟩ ⟨n', v'⟩ _ _ hle hge
  simpa using le_antisymm (before_iff.mp hle) (before_iff.mp hge)

end Attribute

/-- The identity that an entry stands for. -/
def Verdict.key (v : Verdict) : String × List Attribute := (v.name, v.attributes)

/-- The identity of an annotation: its name and its relevant attributes. -/
def Classifier.key (classifier : Classifier) (a : AnnotationUse) : String × List Attribute :=
  (a.name, classifier.relevant a.name a.attributes)

namespace VerdictCache

variable {classifier : Classifier}

/-- The identities of the entries. -/
def keys (cache : VerdictCache) : List (String × List Attribute) := cache.infos.map Verdict.key

theorem find?_eq_some {cache : VerdictCache} {k : String × List Attribute} {info : Verdict}
    {slot : Nat} (h : cache.find? k.1 k.2 = some (info, slot)) :
    cache.infos[slot]? = some info ∧ info.key = k := by
  have hmem := List.mem_of_find?_eq_some h
  have hsame := List.find?_some h
  rw [Bool.and_eq_true, beq_iff_eq, beq_iff_eq] at hsame
  exact ⟨List.mem_zipIdx_iff_getElem?.mp hmem, Prod.ext hsame.1 hsame.2⟩

theorem not_mem_keys_of_find? {cache : VerdictCache} {k : String × List Attribute}
    (h : cache.find? k.1 k.2 = none) : k ∉ cache.keys := by
  intro hk
  obtain ⟨v, hv, rfl⟩ := List.mem_map.mp hk
  obtain ⟨slot, hslot⟩ := List.mem_iff_getElem?.mp hv
  have hnone := List.find?_eq_none.mp h (v, slot) (List.mem_zipIdx_iff_getElem?.mpr hslot)
  simp [Verdict.key] at hnone

/-- The entry that was found for an annotation has its identity and stands in its slot. -/
structure Holds (classifier : Classifier) (cache : VerdictCache) (a : AnnotationUse)
    (x : Lookup) : Prop where
  entry : cache.infos[x.slot]? = some x.info
  key : x.info.key = classifier.key a

/-- A look-up finds an entry and changes nothing, or it adds one for an identity that has none. -/
theorem lookup_cases (classifier : Classifier) (metaOf : String → List AnnotationUse)
    (a : AnnotationUse) (cache : VerdictCache) :
    ∃ x cache', lookup classifier metaOf a cache = (x, cache') ∧ Holds classifier cache' a x ∧
      (x.asked = none ∧ cache' = cache ∨
        classifier.key a ∉ cache.keys ∧ cache'.infos = cache.infos ++ [x.info]) := by
  rw [lookup]
  cases hfind : cache.find? a.name (classifier.relevant a.name a.attributes) with
  | some found =>
    obtain ⟨info, slot⟩ := found
    obtain ⟨hentry, hkey⟩ := find?_eq_some (k := classifier.key a) hfind
    exact ⟨_, _, rfl, ⟨hentry, hkey⟩, .inl ⟨rfl, rfl⟩⟩
  | none =>
    have hnew := not_mem_keys_of_find? (k := classifier.key a) hfind
    exact ⟨_, _, rfl, ⟨List.getElem?_concat_length, rfl⟩, .inr ⟨hnew, rfl⟩⟩

namespace Holds

variable {cache cache' : VerdictCache} {a : AnnotationUse} {x : Lookup}

/-- Entries stay in their slots when more are added. -/
theorem mono (h : Holds classifier cache a x) (hgrow : cache.infos <+: cache'.infos) :
    Holds classifier cache' a x := by
  obtain ⟨added, hadded⟩ := hgrow
  have hlt := (List.getElem?_eq_some_iff.mp h.entry).1
  refine ⟨?_, h.key⟩
  rw [← hadded, List.getElem?_append_left hlt]
  exact h.entry

theorem getElem?_keys (h : Holds classifier cache a x) :
    cache.keys[x.slot]? = some (classifier.key a) := by
  rw [keys, List.getElem?_map, h.entry, Option.map_some, h.key]

theorem mem_keys (h : Holds classifier cache a x) : classifier.key a ∈ cache.keys :=
  List.mem_of_getElem? h.getElem?_keys

end Holds

/-- The entries are those of the annotations that were looked up, one for each identity. -/
structure Interns (classifier : Classifier) (cache : VerdictCache) (looked : List AnnotationUse) :
    Prop where
  nodup : cache.keys.Nodup
  mem_keys_iff : ∀ k, k ∈ cache.keys ↔ k ∈ looked.map classifier.key

theorem interns_empty : Interns classifier empty [] := ⟨List.nodup_nil, fun _ => Iff.rfl⟩

namespace Interns

variable {cache : VerdictCache} {looked : List AnnotationUse}

theorem lookup (h : Interns classifier cache looked) (metaOf : String → List AnnotationUse)
    (a : AnnotationUse) :
    ∃ x cache', VerdictCache.lookup classifier metaOf a cache = (x, cache') ∧
      Interns classifier cache' (looked ++ [a]) ∧ cache.infos <+: cache'.infos ∧
      Holds classifier cache' a x := by
  obtain ⟨x, cache', hlookup, hholds, ⟨_, rfl⟩ | ⟨hnew, hadded⟩⟩ :=
    lookup_cases classifier metaOf a cache
  · refine ⟨x, cache', hlookup, ⟨h.nodup, fun k => ?_⟩, List.prefix_rfl, hholds⟩
    rw [h.mem_keys_iff, List.map_append, List.mem_append, List.map_singleton, List.mem_singleton,
      or_iff_left_of_imp]
    rintro rfl
    exact (h.mem_keys_iff _).mp hholds.mem_keys
  · have hkeys : cache'.keys = cache.keys ++ [classifier.key a] := by
      rw [keys, hadded, List.map_append, List.map_singleton, hholds.key, keys]
    refine ⟨x, cache', hlookup, ⟨?_, fun k => ?_⟩, ⟨[x.info], hadded.symm⟩, hholds⟩
    · rw [hkeys, ← List.concat_eq_append]
      exact h.nodup.concat hnew
    · rw [hkeys, List.map_append, List.mem_append, List.mem_append, h.mem_keys_iff]
      rfl

/-- Every look-up of a sequence finds an entry that is still in its slot at the end. -/
theorem mapM (h : Interns classifier cache looked) (metaOf : String → List AnnotationUse)
    (more : List AnnotationUse) :
    ∃ found cache', more.mapM (VerdictCache.lookup classifier metaOf) cache = (found, cache') ∧
      Interns classifier cache' (looked ++ more) ∧ cache.infos <+: cache'.infos ∧
      List.Forall₂ (Holds classifier cache') more found := by
  induction more generalizing cache looked with
  | nil =>
    rw [List.append_nil]
    exact ⟨[], cache, rfl, h, List.prefix_rfl, .nil⟩
  | cons a more ih =>
    obtain ⟨x, next, hlookup, hnext, hgrow, hholds⟩ := h.lookup metaOf a
    obtain ⟨found, last, hmapM, hlast, hgrow', hfound⟩ := ih hnext
    rw [List.append_assoc] at hlast
    refine ⟨x :: found, last, ?_, hlast, hgrow.trans hgrow', .cons (hholds.mono hgrow') hfound⟩
    rw [List.mapM_cons]
    simp only [bind, StateT.bind, hlookup, hmapM]
    rfl

/-- There is one slot for an identity. -/
theorem slot_eq_iff (h : Interns classifier cache looked) {a b : AnnotationUse} {x y : Lookup}
    (hx : Holds classifier cache a x) (hy : Holds classifier cache b y) :
    x.slot = y.slot ↔ classifier.key a = classifier.key b := by
  constructor
  · intro hslot
    have hentry := hx.getElem?_keys
    rw [hslot, hy.getElem?_keys] at hentry
    exact (Option.some.inj hentry).symm
  · intro hsame
    have hlt := (List.getElem?_eq_some_iff.mp hx.getElem?_keys).1
    rw [← List.getElem?_inj hlt h.nodup, hx.getElem?_keys, hy.getElem?_keys, hsame]

theorem size_eq (h : Interns classifier cache looked) :
    cache.size = (looked.map classifier.key).toFinset.card := by
  have hfinset : cache.keys.toFinset = (looked.map classifier.key).toFinset := by
    ext k
    rw [List.mem_toFinset, List.mem_toFinset, h.mem_keys_iff]
  rw [← hfinset, List.toFinset_card_of_nodup h.nodup, keys, List.length_map, size]

/-- An identity that has an entry is found, and nothing is changed. -/
theorem lookup_again (h : Interns classifier cache looked) (metaOf : String → List AnnotationUse)
    {a b : AnnotationUse} {x : Lookup} (hx : Holds classifier cache a x)
    (hkey : classifier.key b = classifier.key a) :
    VerdictCache.lookup classifier metaOf b cache = (⟨x.slot, x.info, none⟩, cache) := by
  obtain ⟨⟨slot, info, asked⟩, cache', hlookup, hholds, ⟨rfl, rfl⟩ | ⟨hnew, _⟩⟩ :=
    lookup_cases classifier metaOf b cache
  · obtain rfl : slot = x.slot := (h.slot_eq_iff hholds hx).mpr hkey
    obtain rfl : info = x.info := Option.some.inj (hholds.entry.symm.trans hx.entry)
    exact hlookup
  · exact absurd (hkey ▸ hx.mem_keys) hnew

end Interns

end VerdictCache

namespace FilterLists

variable (lists : FilterLists Filter)

/-- Some filter for annotations of this name lists an attribute of the name `wanted`. -/
def Lists (name wanted : String) : Prop :=
  ∃ filter ∈ lists.shown ++ lists.shownSingly ++ lists.shownForStubs ++ lists.hidden ++
    lists.hiddenByMeta ++ lists.suppressedByMeta,
    filter.name = name ∧ ∃ expected ∈ filter.attributes, expected.name = wanted

theorem asksFor_iff {name wanted : String} :
    lists.asksFor name wanted = true ↔ lists.Lists name wanted := by
  have hall : lists.all = lists.shown ++ lists.shownSingly ++ lists.shownForStubs ++ lists.hidden ++
      lists.hiddenByMeta ++ lists.suppressedByMeta := by
    simp [all, toLists]
  simp only [asksFor, hall, Lists, List.any_eq_true, Bool.and_eq_true, beq_iff_eq]

instance (name : String) : DecidablePred (lists.Lists name) :=
  fun _ => decidable_of_iff _ lists.asksFor_iff

/-- The name of an annotation, and those of its attributes whose names are listed. -/
def identity (a : AnnotationUse) : String × Multiset Attribute :=
  (a.name, (a.attributes : Multiset Attribute).filter fun x => lists.Lists a.name x.name)

theorem identity_eq (a : AnnotationUse) :
    lists.identity a = (a.name, (lists.relevant a.name a.attributes : Multiset Attribute)) := by
  have hfilter : a.attributes.filter (fun x => lists.asksFor a.name x.name) =
      a.attributes.filter fun x => lists.Lists a.name x.name := by
    refine List.filter_congr fun x _ => ?_
    rw [Bool.eq_iff_iff, lists.asksFor_iff, decide_eq_true_iff]
  rw [identity, Multiset.filter_coe, ← hfilter, relevant]
  exact congrArg (a.name, ·) (Multiset.coe_eq_coe.mpr (List.mergeSort_perm _ _).symm)

theorem pairwise_relevant (name : String) (as : List Attribute) :
    (lists.relevant name as).Pairwise Attribute.Before := Attribute.pairwise_sort _

/-- The relevant attributes of an identity are those that it was made with. -/
theorem relevant_relevant (name : String) (as : List Attribute) :
    lists.relevant name (lists.relevant name as) = lists.relevant name as := by
  have hall : ∀ a ∈ lists.relevant name as, lists.asksFor name a.name = true :=
    fun a ha => (lists.mem_relevant_iff.mp ha).2
  rw [relevant, List.filter_eq_self.mpr hall]
  exact Attribute.sort_eq_of_pairwise (lists.pairwise_relevant name as)

theorem key_eq_iff {a b : AnnotationUse} :
    lists.classifier.key a = lists.classifier.key b ↔ lists.identity a = lists.identity b := by
  rw [identity_eq, identity_eq, Classifier.key, Classifier.key, Prod.mk.injEq, Prod.mk.injEq]
  refine and_congr_right fun _ => ⟨congrArg _, fun h => ?_⟩
  exact Attribute.eq_of_perm (lists.pairwise_relevant _ _) (lists.pairwise_relevant _ _)
    (Multiset.coe_eq_coe.mp h)

theorem card_keys (looked : List AnnotationUse) :
    (looked.map lists.classifier.key).toFinset.card =
      (looked.map lists.identity).toFinset.card := by
  refine Finset.card_bij (fun k _ => (k.1, (k.2 : Multiset Attribute))) ?_ ?_ ?_
  · intro k hk
    obtain ⟨a, ha, rfl⟩ := List.mem_map.mp (List.mem_toFinset.mp hk)
    rw [List.mem_toFinset]
    exact List.mem_map.mpr ⟨a, ha, lists.identity_eq a⟩
  · intro k hk k' hk' hsame
    obtain ⟨a, _, rfl⟩ := List.mem_map.mp (List.mem_toFinset.mp hk)
    obtain ⟨b, _, rfl⟩ := List.mem_map.mp (List.mem_toFinset.mp hk')
    refine lists.key_eq_iff.mpr ?_
    rw [identity_eq, identity_eq]
    exact hsame
  · intro i hi
    obtain ⟨a, ha, rfl⟩ := List.mem_map.mp (List.mem_toFinset.mp hi)
    refine ⟨lists.classifier.key a, ?_, (lists.identity_eq a).symm⟩
    exact List.mem_toFinset.mpr (List.mem_map_of_mem ha)

end FilterLists

namespace Codebase

/-- What is found when annotations are looked up one after the other, and the cache then. -/
def lookups (cb : Codebase) (looked : List AnnotationUse) : List Lookup × VerdictCache :=
  looked.mapM (VerdictCache.lookup cb.settings.classifier cb.metaAnnotations) VerdictCache.empty

theorem mapM_verdict (cb : Codebase) (looked : List AnnotationUse) (cache : VerdictCache) :
    looked.mapM cb.verdict cache =
      let r := looked.mapM (VerdictCache.lookup cb.settings.classifier cb.metaAnnotations) cache
      (r.1.map (·.info), r.2) := by
  induction looked generalizing cache with
  | nil => rfl
  | cons a looked ih =>
    rw [List.mapM_cons, List.mapM_cons]
    simp only [bind, StateT.bind, verdict, ih]
    rfl

/-- Verdicts under filters are kept once for each identity. Two look-ups give the same entry exactly
if the annotations have the same identity, there are as many entries as there were identities, and
the attributes of an entry, which are in order, lead to it again. -/
theorem lookups_intern (number : Nat) (settings : Settings) (lists : FilterLists Filter)
    (calls : List Call) (looked : List AnnotationUse) :
    let cb := build number { settings with classifier := lists.classifier } calls
    let found := (cb.lookups looked).1
    let cache := (cb.lookups looked).2
    looked.mapM cb.verdict VerdictCache.empty = (found.map (·.info), cache) ∧
    found.length = looked.length ∧
    (∀ c ∈ looked.zip found, ∀ d ∈ looked.zip found,
      (c.2.slot = d.2.slot ↔ lists.identity c.1 = lists.identity d.1)) ∧
    cache.size = (looked.map lists.identity).toFinset.card ∧
    ∀ c ∈ looked.zip found, cache.infos[c.2.slot]? = some c.2.info ∧
      c.2.info.attributes.Pairwise Attribute.Before ∧
      VerdictCache.lookup lists.classifier cb.metaAnnotations
        ⟨c.2.info.name, c.2.info.attributes⟩ cache = (⟨c.2.slot, c.2.info, none⟩, cache) := by
  intro cb found cache
  have hempty : VerdictCache.empty.Interns lists.classifier [] := VerdictCache.interns_empty
  obtain ⟨found', cache', hrun, hinterns, _, hfound⟩ := hempty.mapM cb.metaAnnotations looked
  have hlookups : cb.lookups looked = (found', cache') := hrun
  obtain rfl : found' = found := (congrArg Prod.fst hlookups).symm
  obtain rfl : cache' = cache := (congrArg Prod.snd hlookups).symm
  have hholds : ∀ c ∈ looked.zip found, VerdictCache.Holds lists.classifier cache c.1 c.2 :=
    fun c hc => (List.forall₂_iff_zip.mp hfound).2 hc
  refine ⟨cb.mapM_verdict looked _, hfound.length_eq.symm, ?_, ?_, ?_⟩
  · intro c hc d hd
    rw [hinterns.slot_eq_iff (hholds c hc) (hholds d hd), lists.key_eq_iff]
  · rw [hinterns.size_eq, List.nil_append, lists.card_keys]
  · rintro ⟨a, x⟩ hc
    have hx := hholds _ hc
    have hkey : x.info.name = a.name ∧ x.info.attributes = lists.relevant a.name a.attributes :=
      Prod.mk.inj hx.key
    refine ⟨hx.entry, ?_, hinterns.lookup_again _ hx ?_⟩
    · rw [hkey.2]
      exact lists.pairwise_relevant _ _
    · show (x.info.name, lists.relevant x.info.name x.info.attributes) =
        (a.name, lists.relevant a.name a.attributes)
      rw [hkey.1, hkey.2, lists.relevant_relevant]

/-- Attributes that no filter lists do not matter, and neither does the order of the others. How
often one is repeated does. -/
theorem lookups_intern_repeated :
    let lists : FilterLists Filter := { hidden := [⟨"a.Hide", [⟨"by", "x"⟩]⟩] }
    let cb := build 0 { classifier := lists.classifier } []
    let a : AnnotationUse := ⟨"a.Hide", [⟨"by", "y"⟩, ⟨"since", "1"⟩, ⟨"by", "x"⟩]⟩
    let b : AnnotationUse := ⟨"a.Hide", [⟨"by", "x"⟩, ⟨"by", "y"⟩]⟩
    let c : AnnotationUse := ⟨"a.Hide", [⟨"by", "x"⟩, ⟨"by", "x"⟩, ⟨"by", "y"⟩]⟩
    ∃ x y z, (cb.lookups [a, b, c]).1 = [x, y, z] ∧ x.slot = y.slot ∧ x.slot ≠ z.slot ∧
      (cb.lookups [a, b, c]).2.size = 2 := by
  intro lists cb a b c
  obtain ⟨_, hlength, hsame, hsize, _⟩ := lookups_intern 0 {} lists [] [a, b, c]
  obtain ⟨x, y, z, hfound⟩ := List.length_eq_three.mp hlength
  rw [hfound] at hsame
  have hx : (a, x) ∈ [a, b, c].zip [x, y, z] := by simp
  have hy : (b, y) ∈ [a, b, c].zip [x, y, z] := by simp
  have hz : (c, z) ∈ [a, b, c].zip [x, y, z] := by simp
  have hab : lists.identity a = lists.identity b := by decide +kernel
  have hac : lists.identity a ≠ lists.identity c := by decide +kernel
  refine ⟨x, y, z, hfound, (hsame _ hx _ hy).mpr hab, mt (hsame _ hx _ hz).mp hac, ?_⟩
  rw [hsize]
  decide +kernel

end Codebase

end ApiSurface
