import ApiSurface.Element.Basic
import ApiSurface.Proofs.Codebase.SuperClasses
import Mathlib.Data.List.Flatten

/-!
Which members a class inherits.

For every key that a class does not declare itself, the nearest super class with an inheritable
member of that key decides, by its first such member. `ClassRef.nearest?` finds that member directly,
without a list of the keys that were seen; the members that a class inherits, and what `findMember?`
finds, are described by it.
-/

namespace ApiSurface

namespace Tables

variable (t : Tables)

/-- Of the members that are offered for a key, only the first is taken, and none if the key was
seen. -/
theorem filter_firstOfKey (key : MatchKey) (seen : List MatchKey)
    (offers : List (ClassId × MemberId)) :
    (t.firstOfKey seen offers).filter (fun e => t.keyOf e.2 == key) =
      if key ∈ seen then [] else (offers.find? fun e => t.keyOf e.2 == key).toList := by
  induction offers generalizing seen with
  | nil => simp [firstOfKey]
  | cons e rest ih =>
    obtain ⟨a, m⟩ := e
    by_cases hkey : t.keyOf m = key
    · by_cases hseen : key ∈ seen
      · simp [firstOfKey, hkey, hseen, ih]
      · simp [firstOfKey, hkey, hseen, ih]
    · by_cases hknown : t.keyOf m ∈ seen
      · simp [firstOfKey, hknown, hkey, ih]
      · simp [firstOfKey, hknown, hkey, Ne.symm hkey, ih]

theorem firstOfKey_sublist (seen : List MatchKey) (offers : List (ClassId × MemberId)) :
    (t.firstOfKey seen offers).Sublist offers := by
  induction offers generalizing seen with
  | nil => exact .slnil
  | cons e rest ih =>
    rw [firstOfKey]
    split
    · exact (ih seen).cons e
    · exact (ih _).cons_cons e

/-- A member that a class lists was declared in it. -/
theorem Linked.declaredIn {t : Tables} (h : t.Linked) {c m : Nat} (hm : m ∈ (t.classAt c).members) :
    (t.memberAt m).declaredIn = c := by
  cases he : t.classes[c]? with
  | none =>
    rw [classAt_eq_default he] at hm
    cases hm
  | some e =>
    rw [classAt_eq he] at hm
    have howner := (h.members.mem_iff he).mp hm
    obtain ⟨entry, hentry, rfl⟩ : ∃ entry, t.members[m]? = some entry ∧ entry.declaredIn = c := by
      simpa [memberOwners] using howner
    simp [memberAt, Array.getD_eq_getD_getElem?, hentry]

end Tables

namespace MemberRef

/-- Sub classes inherit the member under this key. -/
def Offers (m : MemberRef) (key : MatchKey) : Prop :=
  m.kind ≠ .constructor ∧ m.entry.modifiers.visibility ≠ .ownClass ∧ m.key = key

instance (m : MemberRef) (key : MatchKey) : Decidable (m.Offers key) :=
  inferInstanceAs (Decidable (_ ∧ _ ∧ _))

theorem offers_iff {m : MemberRef} {key : MatchKey} :
    m.Offers key ↔ m.home.tables.isInheritable m.id = true ∧ (m.key == key) = true := by
  simp [Offers, Tables.isInheritable, kind, entry, and_assoc]

end MemberRef

namespace ClassRef

/-- The first inheritable member with this key of the nearest super class that has one. -/
def nearest? (c : ClassRef) (key : MatchKey) : Option MemberRef :=
  c.superClasses.findSome? fun a => a.members.find? fun m => m.Offers key

/-- Of the super classes of `c`, the class `a` is the nearest with an inheritable member of this key,
and `m` is the first of them in `a`. -/
structure Nearest (c : ClassRef) (key : MatchKey) (a : ClassRef) (m : MemberRef) : Prop where
  ancestor : ∃ nearer further, c.superClasses = nearer ++ a :: further ∧
    ∀ b ∈ nearer, ∀ n ∈ b.members, ¬ n.Offers key
  first : ∃ before after, a.members = before ++ m :: after ∧ ∀ n ∈ before, ¬ n.Offers key
  offers : m.Offers key

/-- What it means that `members` are the members which `c` inherits. -/
structure Inherits (c : ClassRef) (members : List MemberRef) : Prop where
  /-- Nothing is inherited for a key that the class declares. -/
  declared : ∀ key, (∃ m ∈ c.members, m.key = key) → members.filter (·.key == key) = []
  /-- For any other key that some super class offers, exactly the nearest member is inherited. -/
  nearest : ∀ key, (∀ m ∈ c.members, m.key ≠ key) →
    (∃ a ∈ c.superClasses, ∃ m ∈ a.members, m.Offers key) →
      ∃ a m, c.Nearest key a m ∧ members.filter (·.key == key) = [m.duplicate c]
  /-- Nothing is inherited for a key that no super class offers. -/
  absent : ∀ key, (∀ a ∈ c.superClasses, ∀ m ∈ a.members, ¬ m.Offers key) →
    members.filter (·.key == key) = []
  /-- An inherited member is a view of a declaration of the super class that it comes from. -/
  projected : ∀ n ∈ members, n.container = c ∧ ∃ a ∈ c.superClasses, n.inheritedFrom = some a ∧
    n.entry.declaredIn = a.id ∧ ∃ m ∈ a.members, n.home = m.home ∧ n.id = m.id
  /-- The nearest super class comes first, and in a class the first declaration. -/
  ordered : members.Sublist ((c.superClasses.flatMap (·.members)).map (·.duplicate c))

variable {c : ClassRef} {key : MatchKey} {m : MemberRef}

theorem nearest?_eq_some_iff : c.nearest? key = some m ↔ ∃ a, c.Nearest key a m := by
  simp only [nearest?, List.findSome?_eq_some_iff, List.find?_eq_some_iff_append,
    List.find?_eq_none, decide_eq_true_eq, Bool.not_eq_true', decide_eq_false_iff_not]
  constructor
  · rintro ⟨nearer, a, further, hsplit, ⟨hoffers, hfirst⟩, hnearer⟩
    exact ⟨a, ⟨nearer, further, hsplit, hnearer⟩, hfirst, hoffers⟩
  · rintro ⟨a, ⟨nearer, further, hsplit, hnearer⟩, hfirst, hoffers⟩
    exact ⟨nearer, a, further, hsplit, ⟨hoffers, hfirst⟩, hnearer⟩

theorem nearest?_eq_none_iff :
    c.nearest? key = none ↔ ∀ a ∈ c.superClasses, ∀ m ∈ a.members, ¬ m.Offers key := by
  simp [nearest?]

/-- A member of the codebase of `c` as the class `a` declares it. -/
def declaredView (c : ClassRef) (e : ClassId × MemberId) : MemberRef where
  home := c.codebase
  id := e.2
  container := ⟨c.codebase, e.1⟩

theorem inheritedMembers_eq (c : ClassRef) :
    c.inheritedMembers =
      (c.codebase.tables.inherited c.id).map fun e => (c.declaredView e).duplicate c := rfl

/-- The nearest member is the first that the super classes offer for the key. -/
theorem nearest?_eq_find? (c : ClassRef) (key : MatchKey) :
    c.nearest? key = ((c.codebase.tables.offered c.id).find? fun e =>
      c.codebase.tables.keyOf e.2 == key).map c.declaredView := by
  rw [nearest?, Tables.offered, List.find?_flatMap, superClasses, List.findSome?_map,
    List.map_findSome?]
  congr 1
  funext a
  simp only [Function.comp_apply]
  rw [members, List.find?_map, List.find?_map, List.find?_filter, Option.map_map]
  apply congrArg (Option.map _)
  apply congrArg (List.find? · _)
  funext m
  exact decide_eq_decide.mpr MemberRef.offers_iff

theorem filter_inheritedMembers (c : ClassRef) (key : MatchKey) :
    c.inheritedMembers.filter (·.key == key) =
      if key ∈ c.members.map MemberRef.key then []
      else ((c.nearest? key).map (·.duplicate c)).toList := by
  have hown : c.members.map MemberRef.key =
      (c.codebase.tables.classAt c.id).members.map c.codebase.tables.keyOf := by
    rw [members, List.map_map]
    rfl
  have hview : c.inheritedMembers.filter (·.key == key) =
      ((c.codebase.tables.inherited c.id).filter fun e => c.codebase.tables.keyOf e.2 == key).map
        fun e => (c.declaredView e).duplicate c := List.filter_map
  rw [hview, Tables.inherited, Tables.filter_firstOfKey, nearest?_eq_find?, hown]
  split_ifs with hdeclared
  · rfl
  · rw [Option.map_map, Option.toList_map]
    rfl

theorem find?_inheritedMembers (c : ClassRef) (key : MatchKey) :
    c.inheritedMembers.find? (·.key == key) =
      if key ∈ c.members.map MemberRef.key then none
      else (c.nearest? key).map (·.duplicate c) := by
  rw [← List.head?_filter, filter_inheritedMembers]
  split_ifs with hdeclared
  · rfl
  · exact Option.head?_toList

theorem inheritedMembers_sublist (c : ClassRef) :
    c.inheritedMembers.Sublist ((c.superClasses.flatMap (·.members)).map (·.duplicate c)) := by
  have hviews : (c.superClasses.flatMap (·.members)).map (·.duplicate c) =
      ((c.codebase.tables.superClasses c.id).flatMap fun a =>
        (c.codebase.tables.classAt a).members.map fun m => (a, m)).map
          fun e => (c.declaredView e).duplicate c := by
    rw [superClasses, List.flatMap_map, List.map_flatMap, List.map_flatMap]
    congr 1
    funext a
    rw [members, List.map_map, List.map_map]
    rfl
  rw [hviews, inheritedMembers_eq, Tables.inherited]
  apply List.Sublist.map
  apply (Tables.firstOfKey_sublist _ _ _).trans
  apply List.Sublist.flatMap_right
  intro a _
  exact List.filter_sublist.map _

/-- The members of a class of a codebase that was built were declared in it. -/
theorem declaredIn_eq (h : c.codebase.tables.Linked) (hm : m ∈ c.members) :
    m.home = c.codebase ∧ m.container = c ∧ m.entry.declaredIn = c.id := by
  obtain ⟨id, hid, rfl⟩ := List.mem_map.mp hm
  exact ⟨rfl, rfl, h.declaredIn hid⟩

theorem inherits_of_linked (h : c.codebase.tables.Linked) : c.Inherits c.inheritedMembers where
  declared := by
    rintro key ⟨m, hm, rfl⟩
    rw [filter_inheritedMembers, if_pos (List.mem_map_of_mem hm)]
  nearest := by
    rintro key hfresh ⟨a, ha, m, hm, hoffers⟩
    have hsome : c.nearest? key ≠ none := by
      intro hnone
      exact nearest?_eq_none_iff.mp hnone a ha m hm hoffers
    obtain ⟨n, hn⟩ := Option.ne_none_iff_exists'.mp hsome
    obtain ⟨b, hnearest⟩ := nearest?_eq_some_iff.mp hn
    refine ⟨b, n, hnearest, ?_⟩
    have hnot : key ∉ c.members.map MemberRef.key := by simpa using hfresh
    rw [filter_inheritedMembers, if_neg hnot, hn]
    rfl
  absent := by
    intro key hnone
    rw [filter_inheritedMembers, nearest?_eq_none_iff.mpr hnone]
    exact ite_self []
  projected := by
    intro n hn
    obtain ⟨m, hm, rfl⟩ := List.mem_map.mp (c.inheritedMembers_sublist.subset hn)
    obtain ⟨a, ha, hma⟩ := List.mem_flatMap.mp hm
    obtain ⟨id, _, rfl⟩ := List.mem_map.mp ha
    obtain ⟨_, hcontainer, hdeclared⟩ := declaredIn_eq (c := ⟨c.codebase, id⟩) h hma
    exact ⟨rfl, _, ha, congrArg some hcontainer, hdeclared, m, hma, rfl, rfl⟩
  ordered := c.inheritedMembers_sublist

theorem linked_of_class? {number : Nat} {settings : Settings} {calls : List Call} {id : ClassId}
    (hc : (Codebase.build number settings calls).class? id = some c) :
    c.codebase.tables.Linked := by
  obtain ⟨_, rfl⟩ := Codebase.class?_eq_some_iff.mp hc
  exact Tables.linked_run calls

/-- The members that a class of a built codebase inherits. -/
theorem inherits_inheritedMembers (number : Nat) (settings : Settings) (calls : List Call)
    (id : ClassId) (c : ClassRef)
    (hc : (Codebase.build number settings calls).class? id = some c) :
    c.Inherits c.inheritedMembers :=
  inherits_of_linked (linked_of_class? hc)

/-- Three classes in a cycle, of which `p.A` is below `p.B` and `p.B` below `p.C`. The field `x` of
`p.B` is private, and `p.A` declares nothing. -/
def cycleCalls : List Call :=
  let int : Option Ty := some (.primitive {} {} .int)
  let extending (name : String) : Option ClassTy := some ⟨{}, {}, name, none, []⟩
  [.addPackage { name := "p" },
    .addClass 0 none { name := "p.A", superType := extending "p.B" },
    .addClass 0 none { name := "p.B", superType := extending "p.C" },
    .addClass 0 none { name := "p.C", superType := extending "p.A" },
    .addMember 1 { kind := .field, name := "x", ty := int, modifiers := { visibility := .ownClass } },
    .addMember 2 { kind := .constructor },
    .addMember 2 { kind := .field, name := "y", ty := int },
    .addMember 2 { kind := .field, name := "x", ty := int },
    .addMember 1 { kind := .field, name := "z", ty := int }]

def cycle : Codebase := .build 0 {} cycleCalls

theorem inherits_inheritedMembers_cycle :
    cycle.class? 0 = some ⟨cycle, 0⟩ ∧
      (inheritedMembers ⟨cycle, 0⟩).map (·.id) = [4, 2, 3] ∧
      Inherits ⟨cycle, 0⟩ (inheritedMembers ⟨cycle, 0⟩) := by
  have hc : cycle.class? 0 = some ⟨cycle, 0⟩ := if_pos (by decide +kernel)
  exact ⟨hc, by decide +kernel, inherits_inheritedMembers 0 {} cycleCalls 0 ⟨cycle, 0⟩ hc⟩

/-- What is found is declared, or else it is the nearest member. -/
theorem findMember?_eq (c : ClassRef) (key : MatchKey) :
    c.findMember? key =
      (c.members.find? (·.key == key)).or ((c.nearest? key).map (·.duplicate c)) := by
  rw [findMember?]
  cases hfind : c.members.find? (·.key == key) with
  | some m => rfl
  | none =>
    have hnot : key ∉ c.members.map MemberRef.key := by
      have hne := List.find?_eq_none.mp hfind
      simpa using hne
    rw [Option.none_or, find?_inheritedMembers, if_neg hnot]

theorem key_of_findMember? (h : c.findMember? key = some m) : m.key = key := by
  rw [findMember?] at h
  split at h
  · rename_i hfind
    cases h
    simpa using List.find?_some hfind
  · simpa using List.find?_some h

theorem findMember?_eq_none_iff :
    c.findMember? key = none ↔ ∀ m ∈ c.members ++ c.inheritedMembers, m.key ≠ key := by
  have hsplit : c.findMember? key =
      (c.members ++ c.inheritedMembers).find? (·.key == key) := by
    rw [findMember?, List.find?_append]
    cases c.members.find? (·.key == key) <;> rfl
  rw [hsplit, List.find?_eq_none]
  simp

theorem superClasses_of_superClass? {d : ClassRef} (h : d.codebase.tables.Linked)
    (hsuper : d.superClass? = some c) :
    c = d ∧ d.superClasses = [] ∨
      ∃ chain, d.superClasses = c :: chain ∧
        (c.superClasses = chain ∨ c.superClasses = chain ++ [d]) := by
  obtain ⟨cb, d⟩ := d
  obtain ⟨super, hid, rfl⟩ := Option.map_eq_some_iff.mp hsuper
  by_cases hself : super = d
  · subst hself
    have hnil := Tables.superClasses_eq_nil_of_self h hid
    exact .inl ⟨rfl, congrArg (List.map _) hnil⟩
  · obtain ⟨chain, hchain, habove⟩ := Tables.superClasses_of_superClass? h hid hself
    refine .inr ⟨chain.map (⟨cb, ·⟩), congrArg (List.map _) hchain, ?_⟩
    rcases habove with heq | heq
    · exact .inl (congrArg (List.map _) heq)
    · right
      rw [superClasses, heq, List.map_append]
      rfl

/-- A class that does not offer a key itself is offered what its super class offers, or else what
that one is offered. -/
theorem nearest?_of_superClass? {d : ClassRef} (h : d.codebase.tables.Linked)
    (hsuper : d.superClass? = some c) (hfresh : ∀ n ∈ d.members, n.key ≠ key) :
    d.nearest? key = (c.members.find? fun n => n.Offers key).or (c.nearest? key) := by
  have hskip : (d.members.find? fun n => n.Offers key) = none := by
    rw [List.find?_eq_none]
    intro n hn hoffers
    exact hfresh n hn (of_decide_eq_true hoffers).2.2
  rcases superClasses_of_superClass? h hsuper with ⟨rfl, hnil⟩ | ⟨chain, hchain, habove⟩
  · rw [hskip, Option.none_or]
  · have hrest : c.nearest? key =
        chain.findSome? fun a => a.members.find? fun n => n.Offers key := by
      rcases habove with heq | heq
      · rw [nearest?, heq]
      · rw [nearest?, heq, List.findSome?_append, List.findSome?_singleton, hskip, Option.or_none]
    rw [hrest, nearest?, hchain, List.findSome?_cons]
    cases c.members.find? fun n => n.Offers key <;> rfl

theorem find?_offers_of_find?_key (hfind : c.members.find? (·.key == key) = some m)
    (hoffers : m.Offers key) : (c.members.find? fun n => n.Offers key) = some m := by
  obtain ⟨_, before, after, hsplit, hbefore⟩ := List.find?_eq_some_iff_append.mp hfind
  refine List.find?_eq_some_iff_append.mpr ⟨decide_eq_true hoffers, before, after, hsplit, ?_⟩
  intro n hn
  have hkey : n.key ≠ key := by simpa using hbefore n hn
  have hno : ¬ n.Offers key := fun ho => hkey ho.2.2
  simpa using hno

/-- What a class finds and can pass on, it passes on to a sub class that declares no such key. -/
theorem nearest?_of_findMember? {d : ClassRef} (h : d.codebase.tables.Linked)
    (hsuper : d.superClass? = some c) (hfresh : ∀ n ∈ d.members, n.key ≠ key)
    (hfind : c.findMember? key = some m) (hoffers : m.Offers key) :
    ∃ n, d.nearest? key = some n ∧ n.home = m.home ∧ n.id = m.id := by
  rw [nearest?_of_superClass? h hsuper hfresh]
  rw [findMember?_eq] at hfind
  cases hdeclared : c.members.find? (·.key == key) with
  | some n =>
    rw [hdeclared, Option.some_or] at hfind
    obtain rfl := Option.some.inj hfind
    exact ⟨n, by rw [find?_offers_of_find?_key hdeclared hoffers, Option.some_or], rfl, rfl⟩
  | none =>
    rw [hdeclared, Option.none_or] at hfind
    obtain ⟨n, hn, rfl⟩ := Option.map_eq_some_iff.mp hfind
    have hskip : (c.members.find? fun n => n.Offers key) = none := by
      rw [List.find?_eq_none] at hdeclared ⊢
      intro k hk hko
      exact hdeclared k hk (beq_iff_eq.mpr (of_decide_eq_true hko).2.2)
    exact ⟨n, by rw [hskip, Option.none_or, hn], rfl, rfl⟩

theorem container_of_nearest? (h : c.codebase.tables.Linked) (hm : c.nearest? key = some m) :
    m.container = ⟨m.home, m.entry.declaredIn⟩ := by
  obtain ⟨a, hnearest⟩ := nearest?_eq_some_iff.mp hm
  obtain ⟨nearer, further, hsplit, _⟩ := hnearest.ancestor
  obtain ⟨before, after, hmembers, _⟩ := hnearest.first
  have ha : a ∈ c.superClasses := by simp [hsplit]
  have hma : m ∈ a.members := by simp [hmembers]
  obtain ⟨id, _, rfl⟩ := List.mem_map.mp ha
  obtain ⟨hhome, hcontainer, hdeclared⟩ := declaredIn_eq (c := ⟨c.codebase, id⟩) h hma
  rw [hcontainer, hhome, hdeclared]

/-- Finding members agrees along the hierarchy: what the super class finds and can pass on, a class
that does not declare the key finds too, and knows where it was declared. What is found has the key,
and nothing is found only if there is nothing to find. -/
theorem findMember?_coherent (number : Nat) (settings : Settings) (calls : List Call)
    (id : ClassId) (d : ClassRef)
    (hd : (Codebase.build number settings calls).class? id = some d) (key : MatchKey) :
    (∀ b m, d.superClass? = some b → (∀ n ∈ d.members, n.key ≠ key) →
      b.findMember? key = some m → m.kind ≠ .constructor →
      m.entry.modifiers.visibility ≠ .ownClass →
        ∃ n, d.findMember? key = some n ∧ n.home = m.home ∧ n.id = m.id ∧ n.container = d ∧
          n.inheritedFrom = some ⟨m.home, m.entry.declaredIn⟩) ∧
      (∀ m, d.findMember? key = some m → m.key = key) ∧
      (d.findMember? key = none ↔ ∀ m ∈ d.members ++ d.inheritedMembers, m.key ≠ key) := by
  refine ⟨?_, fun m => key_of_findMember?, findMember?_eq_none_iff⟩
  intro b m hsuper hfresh hfind hkind hvisible
  have hlinked := linked_of_class? hd
  have hoffers : m.Offers key := ⟨hkind, hvisible, key_of_findMember? hfind⟩
  obtain ⟨n, hn, hhome, hid⟩ := nearest?_of_findMember? hlinked hsuper hfresh hfind hoffers
  have hnone : d.members.find? (·.key == key) = none := by
    rw [List.find?_eq_none]
    intro k hk hkey
    exact hfresh k hk (beq_iff_eq.mp hkey)
  have hcontainer := container_of_nearest? hlinked hn
  rw [MemberRef.entry, hhome, hid] at hcontainer
  refine ⟨n.duplicate d, ?_, hhome, hid, rfl, congrArg some hcontainer⟩
  rw [findMember?_eq, hnone, Option.none_or, hn]
  rfl

/-- `p.B` finds the field `y` of `p.C`, and so does `p.A` below it. -/
theorem findMember?_coherent_cycle :
    ∃ m n, findMember? ⟨cycle, 1⟩ (.field "y") = some m ∧
      findMember? ⟨cycle, 0⟩ (.field "y") = some n ∧ n.id = m.id ∧
      n.inheritedFrom = some ⟨m.home, m.entry.declaredIn⟩ := by
  have hd : cycle.class? 0 = some ⟨cycle, 0⟩ := if_pos (by decide +kernel)
  have hid : cycle.tables.superClass? 0 = some 1 := by decide +kernel
  have hsuper : superClass? ⟨cycle, 0⟩ = some ⟨cycle, 1⟩ := congrArg (Option.map _) hid
  have hfresh : (members ⟨cycle, 0⟩).map (·.id) = [] := by decide +kernel
  have hsome : (findMember? ⟨cycle, 1⟩ (.field "y")).isSome = true := by decide +kernel
  have hoffers : (findMember? ⟨cycle, 1⟩ (.field "y")).all (·.Offers (.field "y")) = true := by
    decide +kernel
  obtain ⟨m, hm⟩ := Option.isSome_iff_exists.mp hsome
  rw [hm, Option.all_some, decide_eq_true_eq] at hoffers
  obtain ⟨n, hn, _, hsame, _, hfrom⟩ :=
    (findMember?_coherent 0 {} cycleCalls 0 ⟨cycle, 0⟩ hd (.field "y")).1 ⟨cycle, 1⟩ m hsuper
      (by simp [List.map_eq_nil_iff.mp hfresh]) hm hoffers.1 hoffers.2.1
  exact ⟨m, n, hm, hn, hsame, hfrom⟩

end ClassRef

end ApiSurface
