import ApiSurface.Codebase.Traversal
import ApiSurface.Proofs.Codebase.Nesting

/-!
What a walk over a codebase meets.

A class is entered, its members are met, and it is left; what is met at one class is the same in
both shapes of the walk, and so is the order in which classes are entered, which is that of
`preorder`. The shapes differ in where a class is left: after the classes nested in it, or before
them. As no step is taken twice, steps in a given order are a sublist of the walk, and `v` is met
inside of `c` if the steps `[.cls c, v, .leaveClass c]` are.
-/

namespace ApiSurface

open scoped List

namespace Visit

/-- The step that leaves what a step enters. -/
def closing? : Visit → Option Visit
  | codebase => some leaveCodebase
  | package p => some (leavePackage p)
  | cls c => some (leaveClass c)
  | _ => none

/-- Whether a step neither enters nor leaves. -/
def isLeaf : Visit → Bool
  | typeAlias _ | constructor _ | method _ | property _ | field _ => true
  | _ => false

def leavesClass : Visit → Bool
  | leaveClass _ => true
  | _ => false

/-- The package that a step enters. -/
def package? : Visit → Option PackageId
  | package p => some p
  | _ => none

/-- What is entered is left, after all that was entered since. -/
inductive Balanced : List Visit → Prop where
  | nil : Balanced []
  | leaf {v : Visit} {vs : List Visit} (leaf : v.isLeaf = true) (rest : Balanced vs) :
      Balanced (v :: vs)
  | bracket {v w : Visit} {us vs : List Visit} (closing : v.closing? = some w)
      (inner : Balanced us) (rest : Balanced vs) : Balanced (v :: us ++ w :: vs)

namespace Balanced

theorem append {l l' : List Visit} (h : Balanced l) (h' : Balanced l') : Balanced (l ++ l') := by
  induction h with
  | nil => exact h'
  | leaf leaf _ ih => exact .leaf leaf ih
  | bracket closing inner _ _ ih =>
    rw [List.append_assoc, List.cons_append]
    exact .bracket closing inner ih

theorem flatMap {α : Type} {l : List α} {f : α → List Visit} (h : ∀ a ∈ l, Balanced (f a)) :
    Balanced (l.flatMap f) := by
  induction l with
  | nil => exact .nil
  | cons a l ih =>
    rw [List.flatMap_cons]
    exact (h a List.mem_cons_self).append (ih fun b hb => h b (List.mem_cons_of_mem a hb))

theorem leaves {l : List Visit} (h : ∀ v ∈ l, v.isLeaf = true) : Balanced l := by
  induction l with
  | nil => exact .nil
  | cons v l ih =>
    exact .leaf (h v List.mem_cons_self) (ih fun w hw => h w (List.mem_cons_of_mem v hw))

end Balanced

theorem ofMember_inj {kind kind' : MemberKind} {m m' : MemberId} :
    ofMember kind m = ofMember kind' m' ↔ kind = kind' ∧ m = m' := by
  cases kind <;> cases kind' <;> simp [ofMember]

end Visit

theorem infix_flatMap_of_mem {α β : Type} {l : List α} {a : α} (f : α → List β) (ha : a ∈ l) :
    f a <:+: l.flatMap f := by
  rw [List.flatMap_def]
  exact List.infix_of_mem_flatten (List.mem_map_of_mem ha)

theorem nodup_bracket {α : Type} {a b : α} {inner : List α} (hne : a ≠ b) (ha : a ∉ inner)
    (hb : b ∉ inner) (hinner : inner.Nodup) : (a :: (inner ++ [b])).Nodup := by
  rw [List.nodup_cons, List.mem_append, List.mem_singleton, List.nodup_append]
  refine ⟨fun hmem => hmem.elim ha hne, hinner, List.nodup_singleton b, ?_⟩
  rintro v hv w hw rfl
  exact hb (List.mem_singleton.mp hw ▸ hv)

theorem cons_sublist_of_not_mem {α : Type} {a : α} {l r r' : List α} (ha : a ∉ r)
    (h : a :: l <+ r ++ r') : a :: l <+ r' := by
  obtain ⟨l₁, l₂, heq, hr, hr'⟩ := List.sublist_append_iff.mp h
  cases l₁ with
  | nil => exact heq ▸ hr'
  | cons b l₁ =>
    obtain ⟨rfl, _⟩ := List.cons.inj heq
    exact absurd (hr.subset List.mem_cons_self) ha

theorem concat_sublist_of_not_mem {α : Type} {a : α} {l r r' : List α} (ha : a ∉ r')
    (h : l ++ [a] <+ r ++ r') : l ++ [a] <+ r := by
  rw [← List.reverse_sublist] at h ⊢
  rw [List.reverse_append, List.reverse_append] at h
  rw [List.reverse_append]
  exact cons_sublist_of_not_mem (mt List.mem_reverse.mp ha) h

/-- In a list without repetition, what comes between `a` and `b` is in the piece between them. -/
theorem between_iff {α : Type} {a b : α} {mid inner l : List α} (hnodup : l.Nodup)
    (hpiece : a :: (inner ++ [b]) <:+: l) : a :: (mid ++ [b]) <+ l ↔ mid <+ inner := by
  constructor
  · intro h
    obtain ⟨before, after, rfl⟩ := hpiece
    rw [List.append_assoc, List.cons_append] at hnodup h
    have hbefore : a ∉ before := fun ha =>
      (List.nodup_append.mp hnodup).2.2 a ha a List.mem_cons_self rfl
    have hrest : (inner ++ [b] ++ after).Nodup := (List.nodup_append.mp hnodup).2.1.of_cons
    have hafter : b ∉ after := fun hb =>
      (List.nodup_append.mp hrest).2.2 b (List.mem_append_right _ List.mem_cons_self) b hb rfl
    -- Neither end occurs outside of the piece, so nothing between them is taken from there.
    have hmid := List.cons_sublist_cons.mp (cons_sublist_of_not_mem hbefore h)
    exact (List.append_sublist_append_right [b]).mp (concat_sublist_of_not_mem hafter hmid)
  · intro h
    exact ((h.append (List.Sublist.refl [b])).cons_cons a).trans hpiece.sublist

namespace Tables

variable {t : Tables}

/-- What a walk adds at a class to what it meets at the classes nested in it. -/
def visitAt (t : Tables) (nesting : Bool) (c : ClassId) (nested : List Visit) : List Visit :=
  .cls c :: t.visitMembers c ++
    if nesting then nested ++ [.leaveClass c] else .leaveClass c :: nested

theorem visitClass_eq_walk (t : Tables) (nesting : Bool) (c : ClassId) :
    t.visitClass nesting c = t.walk (t.visitAt nesting) c := by
  have hwithin : ∀ n, t.visitClassWithin nesting n = t.walkWithin (t.visitAt nesting) n := by
    intro n
    induction n with
    | zero => rfl
    | succ n ih =>
      funext c
      rw [visitClassWithin, walkWithin, ih]
      rfl
  rw [visitClass, walk, hwithin]

/-- What is met at a class itself. -/
def ownVisits (t : Tables) (c : ClassId) : List Visit :=
  .cls c :: t.visitMembers c ++ [.leaveClass c]

/-- What is met between entering and leaving a class. -/
def inside (t : Tables) (nesting : Bool) (c : ClassId) : List Visit :=
  t.visitMembers c ++
    if nesting then (t.classAt c).nested.flatMap (t.visitClass nesting) else []

/-- All that is met from entering to leaving a class. -/
def bracket (t : Tables) (nesting : Bool) (c : ClassId) : List Visit :=
  .cls c :: (t.inside nesting c ++ [.leaveClass c])

/-- The class at which a step is taken. -/
def classOf? (t : Tables) : Visit → Option ClassId
  | .cls c | .leaveClass c => some c
  | .constructor m | .method m | .property m | .field m => some (t.memberAt m).declaredIn
  | _ => none

/-- The step meets the member, through the hook of the member's kind. -/
inductive MetBy (t : Tables) (m : MemberId) : Visit → Prop where
  | constructor (kind : (t.memberAt m).kind = .constructor) : MetBy t m (.constructor m)
  | method (kind : (t.memberAt m).kind = .method) : MetBy t m (.method m)
  | property (kind : (t.memberAt m).kind = .property) : MetBy t m (.property m)
  | field (kind : (t.memberAt m).kind = .field) : MetBy t m (.field m)

theorem metBy_iff {m : MemberId} {v : Visit} :
    t.MetBy m v ↔ v = .ofMember (t.memberAt m).kind m := by
  constructor
  · intro h
    cases h with
    | constructor kind | method kind | property kind | field kind =>
      rw [kind]
      rfl
  · rintro rfl
    cases kind : (t.memberAt m).kind with
    | constructor => exact .constructor kind
    | method => exact .method kind
    | property => exact .property kind
    | field => exact .field kind

theorem MetBy.isLeaf {m : MemberId} {v : Visit} (h : t.MetBy m v) : v.isLeaf = true := by
  cases h <;> rfl

theorem MetBy.classOf? {m : MemberId} {v : Visit} (h : t.MetBy m v) :
    t.classOf? v = some (t.memberAt m).declaredIn := by
  cases h <;> rfl

theorem mem_visitMembers_iff {c : ClassId} {v : Visit} :
    v ∈ t.visitMembers c ↔ ∃ m ∈ (t.classAt c).members, t.MetBy m v := by
  have hall : ∀ kind : MemberKind, kind ∈ MemberKind.all := by
    intro kind
    cases kind <;> decide
  simp only [visitMembers, membersOfKind, List.mem_flatMap, List.mem_map, List.mem_filter,
    decide_eq_true_eq, metBy_iff]
  constructor
  · rintro ⟨kind, _, m, ⟨hm, rfl⟩, rfl⟩
    exact ⟨m, hm, rfl⟩
  · rintro ⟨m, hm, rfl⟩
    exact ⟨_, hall _, m, ⟨hm, rfl⟩, rfl⟩

theorem isLeaf_of_mem_visitMembers {c : ClassId} {v : Visit} (hv : v ∈ t.visitMembers c) :
    v.isLeaf = true := by
  obtain ⟨m, _, hmet⟩ := mem_visitMembers_iff.mp hv
  exact hmet.isLeaf

/-- Members are met without leaving a class. -/
theorem filter_visitMembers (t : Tables) (c : ClassId) :
    (t.visitMembers c).filter (!·.leavesClass) = t.visitMembers c := by
  rw [List.filter_eq_self]
  intro v hv
  have hleaf := isLeaf_of_mem_visitMembers hv
  cases v with
  | leaveClass c => cases hleaf
  | _ => rfl

namespace Linked

variable (h : t.Linked)
include h

theorem visitClass_eq (nesting : Bool) {c : ClassId} (hc : c < t.classes.size) :
    t.visitClass nesting c =
      t.visitAt nesting c ((t.classAt c).nested.flatMap (t.visitClass nesting)) := by
  have hwalk : t.visitClass nesting = t.walk (t.visitAt nesting) :=
    funext (t.visitClass_eq_walk nesting)
  rw [hwalk]
  exact h.walk_eq _ hc

theorem visitClass_eq_bracket (nesting : Bool) {c : ClassId} (hc : c < t.classes.size) :
    t.visitClass nesting c = t.bracket nesting c ++
      if nesting then [] else (t.classAt c).nested.flatMap (t.visitClass nesting) := by
  rw [h.visitClass_eq nesting hc, visitAt, bracket, inside]
  cases nesting <;> simp

/-- Both shapes take the same steps: those at each class of `preorder`. -/
theorem visitClass_perm (nesting : Bool) {c : ClassId} (hc : c < t.classes.size) :
    t.visitClass nesting c ~ (t.preorder c).flatMap t.ownVisits := by
  induction c, hc using h.nested_induction with
  | step c hc ih =>
    have hnested : (t.classAt c).nested.flatMap (t.visitClass nesting) ~
        ((t.classAt c).nested.flatMap t.preorder).flatMap t.ownVisits := by
      rw [List.flatMap_assoc]
      exact List.Perm.flatMap_left _ fun n hn => ih n (h.lt_of_mem_nested hn) hn
    -- The shapes differ in the side of the nested classes on which the class is left.
    rw [h.preorder_eq hc, List.flatMap_cons, h.visitClass_eq nesting hc, visitAt, ownVisits]
    refine List.Perm.trans ?_ (hnested.append_left _)
    cases nesting with
    | true =>
      rw [if_pos rfl, List.append_assoc (Visit.cls c :: _)]
      exact List.perm_append_comm.append_left _
    | false => simp

/-- When classes are not left, both shapes enter the classes of `preorder`, each with its
members. -/
theorem filter_visitClass (nesting : Bool) {c : ClassId} (hc : c < t.classes.size) :
    (t.visitClass nesting c).filter (!·.leavesClass) =
      (t.preorder c).flatMap fun d => .cls d :: t.visitMembers d := by
  induction c, hc using h.nested_induction with
  | step c hc ih =>
    have hnested : ((t.classAt c).nested.flatMap (t.visitClass nesting)).filter (!·.leavesClass) =
        ((t.classAt c).nested.flatMap t.preorder).flatMap
          fun d => .cls d :: t.visitMembers d := by
      rw [List.filter_flatMap, List.flatMap_assoc]
      exact List.flatMap_congr fun n hn => ih n (h.lt_of_mem_nested hn) hn
    rw [h.preorder_eq hc, List.flatMap_cons, h.visitClass_eq nesting hc, visitAt, ← hnested]
    have hcls : (!(Visit.cls c).leavesClass) = true := rfl
    have hleave : (!(Visit.leaveClass c).leavesClass) = false := rfl
    cases nesting <;>
      simp only [if_true, Bool.false_eq_true, if_false, List.cons_append, List.filter_cons,
        List.filter_append, List.filter_nil, List.append_nil, filter_visitMembers, hcls, hleave]

theorem balanced_visitClass (nesting : Bool) {c : ClassId} (hc : c < t.classes.size) :
    Visit.Balanced (t.visitClass nesting c) := by
  induction c, hc using h.nested_induction with
  | step c hc ih =>
    have hmembers : Visit.Balanced (t.visitMembers c) :=
      .leaves fun _ => isLeaf_of_mem_visitMembers
    have hnested : Visit.Balanced ((t.classAt c).nested.flatMap (t.visitClass nesting)) :=
      .flatMap fun n hn => ih n (h.lt_of_mem_nested hn) hn
    rw [h.visitClass_eq nesting hc, visitAt]
    cases nesting with
    | true =>
      have hbracket := Visit.Balanced.bracket (v := .cls c) rfl (hmembers.append hnested) .nil
      simpa using hbracket
    | false => exact .bracket rfl hmembers hnested

/-- A class is entered and left in one piece of the walk over any class around it. -/
theorem bracket_infix_visitClass (nesting : Bool) {c d : ClassId} (hc : c < t.classes.size)
    (hd : d ∈ t.preorder c) : t.bracket nesting d <:+: t.visitClass nesting c := by
  induction c, hc using h.nested_induction with
  | step c hc ih =>
    rw [h.preorder_eq hc, List.mem_cons, List.mem_flatMap] at hd
    rcases hd with rfl | ⟨n, hn, hd⟩
    · rw [h.visitClass_eq_bracket nesting hc]
      exact (List.prefix_append _ _).isInfix
    · have hnested := infix_flatMap_of_mem (t.visitClass nesting) hn
      have hvisit : (t.classAt c).nested.flatMap (t.visitClass nesting) <:+:
          t.visitClass nesting c := by
        rw [h.visitClass_eq nesting hc, visitAt]
        cases nesting with
        | true => exact ⟨.cls c :: t.visitMembers c, [.leaveClass c], by simp⟩
        | false => exact ⟨.cls c :: t.visitMembers c ++ [.leaveClass c], [], by simp⟩
      exact (ih n (h.lt_of_mem_nested hn) hn hd).trans (hnested.trans hvisit)

theorem mem_ownVisits_iff {c : ClassId} {v : Visit} :
    v ∈ t.ownVisits c ↔ v = .cls c ∨
      (∃ m, m < t.members.size ∧ (t.memberAt m).declaredIn = c ∧ t.MetBy m v) ∨
      v = .leaveClass c := by
  rw [ownVisits, List.mem_append, List.mem_cons, List.mem_singleton, or_assoc,
    mem_visitMembers_iff]
  simp only [h.mem_members_iff, and_assoc]

theorem classOf?_of_mem_ownVisits {c : ClassId} {v : Visit} (hv : v ∈ t.ownVisits c) :
    t.classOf? v = some c := by
  obtain rfl | ⟨m, _, rfl, hmet⟩ | rfl := h.mem_ownVisits_iff.mp hv
  · rfl
  · exact hmet.classOf?
  · rfl

theorem nodup_visitMembers (c : ClassId) : (t.visitMembers c).Nodup := by
  rw [visitMembers, List.nodup_flatMap]
  constructor
  · intro kind _
    refine ((h.nodup_members c).filter _).map fun m m' heq => ?_
    exact (Visit.ofMember_inj.mp heq).2
  · have hkinds : MemberKind.all.Nodup := by decide
    refine hkinds.imp fun {kind kind'} hne v hv hv' => hne ?_
    obtain ⟨m, _, rfl⟩ := List.mem_map.mp hv
    obtain ⟨m', _, heq⟩ := List.mem_map.mp hv'
    exact (Visit.ofMember_inj.mp heq).1.symm

theorem nodup_ownVisits (c : ClassId) : (t.ownVisits c).Nodup := by
  have hleaf : ∀ v ∈ t.visitMembers c, v.isLeaf = true := fun _ => isLeaf_of_mem_visitMembers
  refine nodup_bracket (fun heq => ?_) (fun hmem => ?_) (fun hmem => ?_) (h.nodup_visitMembers c)
  · cases heq
  · cases hleaf _ hmem
  · cases hleaf _ hmem

/-- No step is taken at two classes. -/
theorem nodup_flatMap_ownVisits {classes : List ClassId} (hclasses : classes.Nodup) :
    (classes.flatMap t.ownVisits).Nodup := by
  rw [List.nodup_flatMap]
  refine ⟨fun c _ => h.nodup_ownVisits c, hclasses.imp fun {c d} hne v hc hd => hne ?_⟩
  have hsame := (h.classOf?_of_mem_ownVisits hc).symm.trans (h.classOf?_of_mem_ownVisits hd)
  exact Option.some.inj hsame

section Roots

variable (nesting : Bool) {roots : List ClassId} (hroots : ∀ r ∈ roots, r < t.classes.size)
include hroots

theorem flatMap_visitClass_perm :
    roots.flatMap (t.visitClass nesting) ~ (roots.flatMap t.preorder).flatMap t.ownVisits := by
  rw [List.flatMap_assoc]
  exact List.Perm.flatMap_left _ fun r hr => h.visitClass_perm nesting (hroots r hr)

theorem cls_mem_flatMap_visitClass_iff {c : ClassId} :
    .cls c ∈ roots.flatMap (t.visitClass nesting) ↔ c ∈ roots.flatMap t.preorder := by
  rw [(h.flatMap_visitClass_perm nesting hroots).mem_iff, List.mem_flatMap (f := t.ownVisits)]
  constructor
  · rintro ⟨d, hd, hown⟩
    obtain rfl := Option.some.inj (h.classOf?_of_mem_ownVisits hown)
    exact hd
  · intro hc
    exact ⟨c, hc, List.mem_cons_self⟩

theorem bracket_infix_flatMap {c : ClassId} (hc : c ∈ roots.flatMap t.preorder) :
    t.bracket nesting c <:+: roots.flatMap (t.visitClass nesting) := by
  obtain ⟨r, hr, hc⟩ := List.mem_flatMap.mp hc
  exact (h.bracket_infix_visitClass nesting (hroots r hr) hc).trans (infix_flatMap_of_mem _ hr)

/-- A class is entered and left again in the walk over `roots` exactly if it is listed. -/
theorem enters_leaves_iff {c : ClassId} :
    [.cls c, .leaveClass c] <+ roots.flatMap (t.visitClass nesting) ↔
      c ∈ roots.flatMap t.preorder := by
  constructor
  · intro hsub
    exact (h.cls_mem_flatMap_visitClass_iff nesting hroots).mp (hsub.subset List.mem_cons_self)
  · intro hc
    have hbracket : [.cls c, .leaveClass c] <+ t.bracket nesting c :=
      (List.sublist_append_right _ _).cons_cons _
    exact hbracket.trans (h.bracket_infix_flatMap nesting hroots hc).sublist

end Roots

theorem visitPackage_perm (nesting : Bool) {p : PackageId} (hp : p < t.packages.size) :
    t.visitPackage nesting p ~ .package p :: ((t.packageAt p).aliases.map .typeAlias ++
      (t.forest p).flatMap t.ownVisits ++ [.leavePackage p]) := by
  have hclasses := h.flatMap_visitClass_perm nesting (h.lt_of_mem_classes hp)
  exact ((hclasses.append_left _).append_right _).cons _

/-- In a package, it and its type aliases are met, and what is met at its classes. -/
theorem mem_visitPackage_iff (nesting : Bool) {p : PackageId} (hp : p < t.packages.size)
    {v : Visit} :
    v ∈ t.visitPackage nesting p ↔ v = .package p ∨
      (∃ a, a < t.aliases.size ∧ (t.aliasAt a).package = p ∧ v = .typeAlias a) ∨
      (∃ c, c < t.classes.size ∧ (t.classAt c).package = p ∧ v ∈ t.ownVisits c) ∨
      v = .leavePackage p := by
  rw [(h.visitPackage_perm nesting hp).mem_iff, List.mem_cons, List.mem_append, List.mem_append,
    List.mem_singleton, List.mem_map, List.mem_flatMap, or_assoc]
  simp only [h.mem_aliases_iff hp, h.mem_forest_iff hp, and_assoc, eq_comm (b := v)]

theorem nodup_visitPackage (nesting : Bool) {p : PackageId} (hp : p < t.packages.size) :
    (t.visitPackage nesting p).Nodup := by
  have haliases : (t.packageAt p).aliases.Nodup := by
    have he := Array.getElem?_eq_getElem hp
    rw [packageAt_eq he]
    exact h.aliases.nodup he
  have hclasses : ∀ v ∈ (t.forest p).flatMap t.ownVisits, t.classOf? v ≠ none := by
    intro v hv hnone
    obtain ⟨c, _, hv⟩ := List.mem_flatMap.mp hv
    rw [h.classOf?_of_mem_ownVisits hv] at hnone
    cases hnone
  have hinner : ∀ v ∈ (t.packageAt p).aliases.map .typeAlias ++ (t.forest p).flatMap t.ownVisits,
      v ≠ .package p ∧ v ≠ .leavePackage p := by
    intro v hv
    rcases List.mem_append.mp hv with hv | hv
    · obtain ⟨a, _, rfl⟩ := List.mem_map.mp hv
      exact ⟨Visit.noConfusion, Visit.noConfusion⟩
    · constructor
      · rintro rfl
        exact hclasses _ hv rfl
      · rintro rfl
        exact hclasses _ hv rfl
  rw [(h.visitPackage_perm nesting hp).nodup_iff]
  refine nodup_bracket Visit.noConfusion (fun hmem => (hinner _ hmem).1 rfl)
    (fun hmem => (hinner _ hmem).2 rfl) (List.nodup_append.mpr ⟨?_, ?_, ?_⟩)
  · exact haliases.map fun a a' heq => Visit.typeAlias.inj heq
  · exact h.nodup_flatMap_ownVisits (h.nodup_forest hp)
  · rintro v hv w hw rfl
    obtain ⟨a, _, rfl⟩ := List.mem_map.mp hv
    exact hclasses _ hw rfl

end Linked

/-- The package in which a step is taken. -/
def packageOf? (t : Tables) : Visit → Option PackageId
  | .package p | .leavePackage p => some p
  | .typeAlias a => some (t.aliasAt a).package
  | v => (t.classOf? v).map fun c => (t.classAt c).package

theorem Linked.packageOf?_of_mem (h : t.Linked) (nesting : Bool) {p : PackageId}
    (hp : p < t.packages.size) {v : Visit} (hv : v ∈ t.visitPackage nesting p) :
    t.packageOf? v = some p := by
  obtain rfl | ⟨a, _, rfl, rfl⟩ | ⟨c, _, rfl, hown⟩ | rfl :=
    (h.mem_visitPackage_iff nesting hp).mp hv
  · rfl
  · rfl
  · have hclass := h.classOf?_of_mem_ownVisits hown
    have hpackage : t.packageOf? v = (t.classOf? v).map fun c => (t.classAt c).package := by
      cases v with
      | codebase | leaveCodebase | package | leavePackage | typeAlias => cases hclass
      | _ => rfl
    rw [hpackage, hclass, Option.map_some]
  · rfl

/-- A walk over a package in which no class is left. -/
def outline (t : Tables) (p : PackageId) : List Visit :=
  .package p :: ((t.packageAt p).aliases.map .typeAlias ++
    ((t.forest p).flatMap fun c => .cls c :: t.visitMembers c) ++ [.leavePackage p])

theorem Linked.filter_visitPackage (h : t.Linked) (nesting : Bool) {p : PackageId}
    (hp : p < t.packages.size) :
    (t.visitPackage nesting p).filter (!·.leavesClass) = t.outline p := by
  have hclasses : ((t.packageAt p).classes.flatMap (t.visitClass nesting)).filter (!·.leavesClass) =
      (t.forest p).flatMap fun c => .cls c :: t.visitMembers c := by
    rw [List.filter_flatMap, forest, List.flatMap_assoc]
    exact List.flatMap_congr fun c hc => h.filter_visitClass nesting (h.lt_of_mem_classes hp c hc)
  have haliases : ((t.packageAt p).aliases.map Visit.typeAlias).filter (!·.leavesClass) =
      (t.packageAt p).aliases.map .typeAlias := by
    rw [List.filter_eq_self]
    intro v hv
    obtain ⟨a, _, rfl⟩ := List.mem_map.mp hv
    rfl
  rw [visitPackage, outline, ← hclasses, List.cons_append, List.cons_append,
    List.filter_cons_of_pos rfl, List.filter_append, List.filter_append, haliases]
  rfl

/-- The steps that a walk takes: it enters and leaves what there is, and meets every member through
the hook of its kind. -/
inductive Meets (t : Tables) : Visit → Prop where
  | codebase : Meets t .codebase
  | leaveCodebase : Meets t .leaveCodebase
  | package {p : PackageId} (hp : p < t.packages.size) : Meets t (.package p)
  | leavePackage {p : PackageId} (hp : p < t.packages.size) : Meets t (.leavePackage p)
  | typeAlias {a : AliasId} (ha : a < t.aliases.size) : Meets t (.typeAlias a)
  | cls {c : ClassId} (hc : c < t.classes.size) : Meets t (.cls c)
  | leaveClass {c : ClassId} (hc : c < t.classes.size) : Meets t (.leaveClass c)
  | member {m : MemberId} {v : Visit} (hm : m < t.members.size) (hmet : t.MetBy m v) : Meets t v

end Tables

namespace Codebase

variable {cb : Codebase} (h : cb.tables.Linked)
include h

theorem mem_packageIndex_iff {name : String} {p : PackageId} :
    (name, p) ∈ cb.tables.packageIndex.toList ↔
      p < cb.tables.packages.size ∧ (cb.tables.packageAt p).decl.name = name := by
  rw [Std.TreeMap.mem_toList_iff_getElem?_eq_some, h.packageIndex, Tables.packageNames,
    List.getElem?_map, Array.getElem?_toList]
  by_cases hp : p < cb.tables.packages.size
  · have he := Array.getElem?_eq_getElem hp
    simp [Tables.packageAt_eq he, hp]
  · simp [hp]

theorem mem_packages_iff {p : PackageId} : p ∈ cb.packages ↔ p < cb.tables.packages.size := by
  rw [packages, List.mem_map]
  constructor
  · rintro ⟨⟨name, q⟩, hmem, rfl⟩
    exact ((mem_packageIndex_iff h).mp hmem).1
  · intro hp
    exact ⟨_, (mem_packageIndex_iff h).mpr ⟨hp, rfl⟩, rfl⟩

/-- Packages are in the order of their names. -/
theorem packages_pairwise : cb.packages.Pairwise fun p q =>
    (cb.tables.packageAt p).decl.name < (cb.tables.packageAt q).decl.name := by
  have hordered := cb.tables.packageIndex.ordered_keys_toList
  rw [packages, List.pairwise_map]
  refine hordered.imp_of_mem fun {a b} ha hb hlt => ?_
  rw [((mem_packageIndex_iff h).mp ha).2, ((mem_packageIndex_iff h).mp hb).2]
  exact compareOfLessAndEq_eq_lt.mp hlt

theorem nodup_packages : cb.packages.Nodup := by
  refine (packages_pairwise h).imp fun {p q} hlt heq => ?_
  rw [heq] at hlt
  exact String.lt_irrefl _ hlt

theorem visitPackage_infix_visit (nesting : Bool) {p : PackageId}
    (hp : p < cb.tables.packages.size) :
    cb.tables.visitPackage nesting p <:+: cb.visit nesting := by
  have hmem := (mem_packages_iff h).mpr hp
  have hpackages := infix_flatMap_of_mem (cb.tables.visitPackage nesting) hmem
  exact hpackages.trans ⟨[.codebase], [.leaveCodebase], rfl⟩

theorem mem_visit_of_mem_visitPackage (nesting : Bool) {p : PackageId}
    (hp : p < cb.tables.packages.size) {v : Visit} (hv : v ∈ cb.tables.visitPackage nesting p) :
    v ∈ cb.visit nesting :=
  (visitPackage_infix_visit h nesting hp).subset hv

theorem mem_visit_of_mem_ownVisits (nesting : Bool) {c : ClassId}
    (hc : c < cb.tables.classes.size) {v : Visit} (hv : v ∈ cb.tables.ownVisits c) :
    v ∈ cb.visit nesting := by
  have hp := h.package_lt hc
  refine mem_visit_of_mem_visitPackage h nesting hp ?_
  exact (h.mem_visitPackage_iff nesting hp).mpr (.inr (.inr (.inl ⟨c, hc, rfl, hv⟩)))

theorem mem_visit_iff (nesting : Bool) {v : Visit} :
    v ∈ cb.visit nesting ↔ cb.tables.Meets v := by
  constructor
  · rw [visit, List.mem_append, List.mem_cons, List.mem_singleton, List.mem_flatMap]
    rintro ((rfl | ⟨p, hp, hv⟩) | rfl)
    · exact .codebase
    · have hlt := (mem_packages_iff h).mp hp
      obtain rfl | ⟨a, ha, _, rfl⟩ | ⟨c, hc, _, hown⟩ | rfl :=
        (h.mem_visitPackage_iff nesting hlt).mp hv
      · exact .package hlt
      · exact .typeAlias ha
      · obtain rfl | ⟨m, hm, _, hmet⟩ | rfl := h.mem_ownVisits_iff.mp hown
        · exact .cls hc
        · exact .member hm hmet
        · exact .leaveClass hc
      · exact .leavePackage hlt
    · exact .leaveCodebase
  · intro hmeets
    cases hmeets with
    | codebase => exact List.mem_cons_self
    | leaveCodebase => exact List.mem_append_right _ List.mem_cons_self
    | package hp =>
      refine mem_visit_of_mem_visitPackage h nesting hp ?_
      exact (h.mem_visitPackage_iff nesting hp).mpr (.inl rfl)
    | leavePackage hp =>
      refine mem_visit_of_mem_visitPackage h nesting hp ?_
      exact (h.mem_visitPackage_iff nesting hp).mpr (.inr (.inr (.inr rfl)))
    | typeAlias ha =>
      have hp := h.aliasPackage_lt ha
      refine mem_visit_of_mem_visitPackage h nesting hp ?_
      exact (h.mem_visitPackage_iff nesting hp).mpr (.inr (.inl ⟨_, ha, rfl, rfl⟩))
    | cls hc => exact mem_visit_of_mem_ownVisits h nesting hc (h.mem_ownVisits_iff.mpr (.inl rfl))
    | leaveClass hc =>
      exact mem_visit_of_mem_ownVisits h nesting hc (h.mem_ownVisits_iff.mpr (.inr (.inr rfl)))
    | member hm hmet =>
      refine mem_visit_of_mem_ownVisits h nesting (h.declaredIn_lt hm) ?_
      exact h.mem_ownVisits_iff.mpr (.inr (.inl ⟨_, hm, rfl, hmet⟩))

theorem cls_mem_visit_iff (nesting : Bool) {c : ClassId} :
    .cls c ∈ cb.visit nesting ↔ c < cb.tables.classes.size := by
  rw [mem_visit_iff h]
  refine ⟨fun hmeets => ?_, .cls⟩
  generalize hv : Visit.cls c = v at hmeets
  cases hmeets with
  | cls hc => exact Visit.cls.inj hv ▸ hc
  | member _ hmet => cases hv ▸ hmet.isLeaf
  | _ => cases hv

theorem package_mem_visit_iff (nesting : Bool) {p : PackageId} :
    .package p ∈ cb.visit nesting ↔ p < cb.tables.packages.size := by
  rw [mem_visit_iff h]
  refine ⟨fun hmeets => ?_, .package⟩
  generalize hv : Visit.package p = v at hmeets
  cases hmeets with
  | package hp => exact Visit.package.inj hv ▸ hp
  | member _ hmet => cases hv ▸ hmet.isLeaf
  | _ => cases hv

/-- No step is taken twice. -/
theorem nodup_visit (nesting : Bool) : (cb.visit nesting).Nodup := by
  have hpackage : ∀ v ∈ cb.packages.flatMap (cb.tables.visitPackage nesting),
      cb.tables.packageOf? v ≠ none := by
    intro v hv hnone
    obtain ⟨p, hp, hv⟩ := List.mem_flatMap.mp hv
    rw [h.packageOf?_of_mem nesting ((mem_packages_iff h).mp hp) hv] at hnone
    cases hnone
  refine nodup_bracket Visit.noConfusion (fun hmem => hpackage _ hmem rfl)
    (fun hmem => hpackage _ hmem rfl) (List.nodup_flatMap.mpr ⟨fun p hp => ?_, ?_⟩)
  · exact h.nodup_visitPackage nesting ((mem_packages_iff h).mp hp)
  · refine (nodup_packages h).imp_of_mem fun {p q} hp hq hne v hv hv' => hne ?_
    have hvp := h.packageOf?_of_mem nesting ((mem_packages_iff h).mp hp) hv
    have hvq := h.packageOf?_of_mem nesting ((mem_packages_iff h).mp hq) hv'
    exact Option.some.inj (hvp.symm.trans hvq)

/-- A walk over a package enters that package alone. -/
theorem filterMap_package?_visitPackage (nesting : Bool) {p : PackageId}
    (hp : p < cb.tables.packages.size) :
    (cb.tables.visitPackage nesting p).filterMap Visit.package? = [p] := by
  have hnodup := h.nodup_visitPackage nesting hp
  have hin := fun v hv => (h.packageOf?_of_mem nesting hp (v := v) hv)
  rw [Tables.visitPackage, List.cons_append, List.cons_append] at hnodup hin ⊢
  rw [List.filterMap_cons_some (f := Visit.package?) rfl, List.cons_inj_right,
    List.filterMap_eq_nil_iff]
  intro v hv
  cases v with
  | package q =>
    obtain rfl := Option.some.inj (hin _ (List.mem_cons_of_mem _ hv))
    exact absurd hv (List.nodup_cons.mp hnodup).1
  | _ => rfl

theorem filterMap_package?_visit (nesting : Bool) :
    (cb.visit nesting).filterMap Visit.package? = cb.packages := by
  have hpackages : ∀ p ∈ cb.packages,
      (cb.tables.visitPackage nesting p).filterMap Visit.package? = [p] := fun p hp =>
    filterMap_package?_visitPackage h nesting ((mem_packages_iff h).mp hp)
  rw [visit, List.cons_append, List.filterMap_cons_none rfl, List.filterMap_append,
    List.filterMap_flatMap, List.flatMap_congr hpackages]
  simp [Visit.package?]

theorem balanced_visit (nesting : Bool) : Visit.Balanced (cb.visit nesting) := by
  refine .bracket rfl (.flatMap fun p hp => ?_) .nil
  have hp := (mem_packages_iff h).mp hp
  have haliases : Visit.Balanced ((cb.tables.packageAt p).aliases.map .typeAlias) := by
    refine .leaves fun v hv => ?_
    obtain ⟨a, _, rfl⟩ := List.mem_map.mp hv
    rfl
  have hclasses : Visit.Balanced
      ((cb.tables.packageAt p).classes.flatMap (cb.tables.visitClass nesting)) :=
    .flatMap fun c hc => h.balanced_visitClass nesting (h.lt_of_mem_classes hp c hc)
  exact .bracket rfl (haliases.append hclasses) .nil

/-- A class is entered and left in one piece of the walk. -/
theorem bracket_infix_visit (nesting : Bool) {c : ClassId} (hc : c < cb.tables.classes.size) :
    cb.tables.bracket nesting c <:+: cb.visit nesting := by
  have hp := h.package_lt hc
  have hclasses := h.bracket_infix_flatMap nesting (h.lt_of_mem_classes hp)
    ((h.mem_forest_iff hp).mpr ⟨hc, rfl⟩)
  have hpackage : (cb.tables.packageAt (cb.tables.classAt c).package).classes.flatMap
      (cb.tables.visitClass nesting) <:+:
        cb.tables.visitPackage nesting (cb.tables.classAt c).package := ⟨_, _, rfl⟩
  exact hclasses.trans (hpackage.trans (visitPackage_infix_visit h nesting hp))

theorem within_class_iff (nesting : Bool) {c : ClassId} (hc : c < cb.tables.classes.size)
    (mid : List Visit) : .cls c :: (mid ++ [.leaveClass c]) <+ cb.visit nesting ↔
      mid <+ cb.tables.inside nesting c :=
  between_iff (nodup_visit h nesting) (bracket_infix_visit h nesting hc)

theorem within_package_iff (nesting : Bool) {p : PackageId} (hp : p < cb.tables.packages.size)
    (mid : List Visit) : .package p :: (mid ++ [.leavePackage p]) <+ cb.visit nesting ↔
      mid <+ (cb.tables.packageAt p).aliases.map .typeAlias ++
        (cb.tables.packageAt p).classes.flatMap (cb.tables.visitClass nesting) :=
  between_iff (nodup_visit h nesting) (visitPackage_infix_visit h nesting hp)

/-- With nesting, one class is entered and left inside of another exactly if that is around it. -/
theorem nested_within_iff {c n : ClassId} :
    [.cls c, .cls n, .leaveClass n, .leaveClass c] <+ cb.visit true ↔
      Relation.TransGen cb.tables.Nests c n := by
  by_cases hc : c < cb.tables.classes.size
  -- Members are no classes, so only the walk over the nested classes can enter `n`.
  · have hmembers : .cls n ∉ cb.tables.visitMembers c := fun hmem => by
      cases Tables.isLeaf_of_mem_visitMembers hmem
    have hinside : [.cls n, .leaveClass n] <+ cb.tables.inside true c ↔
        [.cls n, .leaveClass n] <+
          (cb.tables.classAt c).nested.flatMap (cb.tables.visitClass true) :=
      ⟨cons_sublist_of_not_mem hmembers, fun hsub => hsub.trans (List.sublist_append_right _ _)⟩
    refine (within_class_iff h true hc [.cls n, .leaveClass n]).trans ?_
    rw [hinside, h.enters_leaves_iff true fun _ => h.lt_of_mem_nested, List.mem_flatMap,
      Relation.TransGen.head'_iff]
    refine exists_congr fun d => ?_
    rw [h.mem_nested_iff]
    exact and_congr_right fun hnests => h.mem_preorder_iff (h.container_lt hnests).2
  · refine iff_of_false (fun hsub => hc ?_) (fun hreach => hc ?_)
    · exact (cls_mem_visit_iff h true).mp (hsub.subset List.mem_cons_self)
    · obtain ⟨d, hnests, _⟩ := Relation.TransGen.head'_iff.mp hreach
      exact Nat.lt_trans (h.container_lt hnests).1 (h.container_lt hnests).2

/-- Without nesting, nothing but its members is met inside of a class. -/
theorem members_within_iff {c : ClassId} {v : Visit} :
    [.cls c, v, .leaveClass c] <+ cb.visit false ↔
      ∃ m, m < cb.tables.members.size ∧ (cb.tables.memberAt m).declaredIn = c ∧
        cb.tables.MetBy m v := by
  by_cases hc : c < cb.tables.classes.size
  · have hinside : cb.tables.inside false c = cb.tables.visitMembers c := List.append_nil _
    refine (within_class_iff h false hc [v]).trans ?_
    rw [hinside, List.singleton_sublist, Tables.mem_visitMembers_iff]
    simp only [h.mem_members_iff, and_assoc]
  · refine iff_of_false (fun hsub => hc ?_) ?_
    · exact (cls_mem_visit_iff h false).mp (hsub.subset List.mem_cons_self)
    · rintro ⟨m, hm, rfl, _⟩
      exact hc (h.declaredIn_lt hm)

/-- Leaving classes aside, both shapes take the same steps in the same order. -/
theorem filter_visit (nesting : Bool) :
    (cb.visit nesting).filter (!·.leavesClass) =
      .codebase :: (cb.packages.flatMap cb.tables.outline ++ [.leaveCodebase]) := by
  have hpackages : (cb.packages.flatMap (cb.tables.visitPackage nesting)).filter (!·.leavesClass) =
      cb.packages.flatMap cb.tables.outline := by
    rw [List.filter_flatMap]
    exact List.flatMap_congr fun p hp => h.filter_visitPackage nesting ((mem_packages_iff h).mp hp)
  rw [visit, List.cons_append, List.filter_cons_of_pos rfl, List.filter_append, hpackages]
  rfl

/-- A class is met inside of its own package and of no other one. -/
theorem class_within_iff (nesting : Bool) {p : PackageId} {c : ClassId} :
    [.package p, .cls c, .leaveClass c, .leavePackage p] <+ cb.visit nesting ↔
      c < cb.tables.classes.size ∧ (cb.tables.classAt c).package = p := by
  by_cases hp : p < cb.tables.packages.size
  · have haliases : Visit.cls c ∉ (cb.tables.packageAt p).aliases.map .typeAlias := by
      simp
    refine (within_package_iff h nesting hp [.cls c, .leaveClass c]).trans ?_
    rw [← h.mem_forest_iff hp, Tables.forest,
      ← h.enters_leaves_iff nesting (h.lt_of_mem_classes hp)]
    exact ⟨cons_sublist_of_not_mem haliases, fun hsub => hsub.trans (List.sublist_append_right _ _)⟩
  · refine iff_of_false (fun hsub => hp ?_) ?_
    · exact (package_mem_visit_iff h nesting).mp (hsub.subset List.mem_cons_self)
    · rintro ⟨hc, rfl⟩
      exact hp (h.package_lt hc)

/-- A type alias is met inside of its own package and of no other one. -/
theorem alias_within_iff (nesting : Bool) {p : PackageId} {a : AliasId} :
    [.package p, .typeAlias a, .leavePackage p] <+ cb.visit nesting ↔
      a < cb.tables.aliases.size ∧ (cb.tables.aliasAt a).package = p := by
  by_cases hp : p < cb.tables.packages.size
  · have hclasses : Visit.typeAlias a ∉
        (cb.tables.packageAt p).classes.flatMap (cb.tables.visitClass nesting) := by
      rw [(h.flatMap_visitClass_perm nesting (h.lt_of_mem_classes hp)).mem_iff, List.mem_flatMap]
      rintro ⟨c, _, hown⟩
      cases h.classOf?_of_mem_ownVisits hown
    refine (within_package_iff h nesting hp [.typeAlias a]).trans ?_
    rw [List.singleton_sublist, List.mem_append, or_iff_left hclasses, ← h.mem_aliases_iff hp]
    exact List.mem_map_of_injective fun a a' heq => Visit.typeAlias.inj heq
  · refine iff_of_false (fun hsub => hp ?_) ?_
    · exact (package_mem_visit_iff h nesting).mp (hsub.subset List.mem_cons_self)
    · rintro ⟨ha, rfl⟩
      exact hp (h.aliasPackage_lt ha)

/-- A member is met inside of the class that declares it. -/
theorem member_within (nesting : Bool) {m : MemberId} (hm : m < cb.tables.members.size) :
    ∃ v, cb.tables.MetBy m v ∧ [.cls (cb.tables.memberAt m).declaredIn, v,
      .leaveClass (cb.tables.memberAt m).declaredIn] <+ cb.visit nesting := by
  have hmet := Tables.metBy_iff.mpr (rfl : Visit.ofMember (cb.tables.memberAt m).kind m = _)
  have hmem : _ ∈ cb.tables.visitMembers (cb.tables.memberAt m).declaredIn :=
    Tables.mem_visitMembers_iff.mpr ⟨m, h.mem_members_iff.mpr ⟨hm, rfl⟩, hmet⟩
  refine ⟨_, hmet, (within_class_iff h nesting (h.declaredIn_lt hm) [_]).mpr ?_⟩
  exact List.singleton_sublist.mpr (List.mem_append_left _ hmem)

/-- Packages are entered in the order of their names. -/
theorem name_lt_of_sublist (nesting : Bool) {p q : PackageId}
    (hsub : [.package p, .package q] <+ cb.visit nesting) :
    (cb.tables.packageAt p).decl.name < (cb.tables.packageAt q).decl.name := by
  have hpackages := hsub.filterMap Visit.package?
  rw [filterMap_package?_visit h] at hpackages
  exact List.pairwise_iff_forall_sublist.mp (packages_pairwise h) hpackages

end Codebase

/-- A walk that meets everything once and in its place. -/
structure Tables.Tours (t : Tables) (walk : List Visit) : Prop where
  nodup : walk.Nodup
  mem_iff : ∀ v, v ∈ walk ↔ t.Meets v
  balanced : Visit.Balanced walk
  packages : ∀ p q, [.package p, .package q] <+ walk →
    (t.packageAt p).decl.name < (t.packageAt q).decl.name
  classes : ∀ p c, [.package p, .cls c, .leaveClass c, .leavePackage p] <+ walk ↔
    c < t.classes.size ∧ (t.classAt c).package = p
  aliases : ∀ p a, [.package p, .typeAlias a, .leavePackage p] <+ walk ↔
    a < t.aliases.size ∧ (t.aliasAt a).package = p
  members : ∀ m < t.members.size, ∃ v, t.MetBy m v ∧
    [.cls (t.memberAt m).declaredIn, v, .leaveClass (t.memberAt m).declaredIn] <+ walk

theorem Codebase.tours_visit {cb : Codebase} (h : cb.tables.Linked) (nesting : Bool) :
    cb.tables.Tours (cb.visit nesting) where
  nodup := nodup_visit h nesting
  mem_iff _ := mem_visit_iff h nesting
  balanced := balanced_visit h nesting
  packages _ _ := name_lt_of_sublist h nesting
  classes _ _ := class_within_iff h nesting
  aliases _ _ := alias_within_iff h nesting
  members _ := member_within h nesting

/-- Whatever is called, both shapes meet everything once and in its place, and they are the same
when classes are not left. With nesting, a class lies inside of those around it and of no others;
without, only its members lie inside of a class. -/
theorem Codebase.visit_shapes (number : Nat) (settings : Settings) (calls : List Call) :
    let cb := Codebase.build number settings calls
    (∀ nesting, cb.tables.Tours (cb.visit nesting)) ∧
    (cb.visit true).filter (!·.leavesClass) = (cb.visit false).filter (!·.leavesClass) ∧
    (∀ c n, [.cls c, .cls n, .leaveClass n, .leaveClass c] <+ cb.visit true ↔
      Relation.TransGen cb.tables.Nests c n) ∧
    ∀ c v, [.cls c, v, .leaveClass c] <+ cb.visit false ↔
      ∃ m, m < cb.tables.members.size ∧ (cb.tables.memberAt m).declaredIn = c ∧
        cb.tables.MetBy m v := by
  intro cb
  have h : cb.tables.Linked := Tables.linked_run calls
  refine ⟨tours_visit h, ?_, fun _ _ => nested_within_iff h, fun _ _ => members_within_iff h⟩
  rw [filter_visit h, filter_visit h]

/-- Two packages that were added against the order of their names, and members of several kinds in a
class and in a class nested in it. A constructor is met as no method. -/
theorem Codebase.visit_shapes_nested :
    let int : Ty := .primitive {} {} .int
    let calls : List Call :=
      [.addPackage { name := "lib" }, .addPackage { name := "app" },
        .addClass 0 none { name := "lib.Outer" }, .addClass 0 (some 0) { name := "lib.Outer.Inner" },
        .addMember 1 { kind := .field, name := "size", ty := some int },
        .addMember 1 { kind := .constructor }, .addMember 0 { name := "run", ty := some int },
        .addAlias 1 { name := "app.Size", ty := int }]
    let cb := Codebase.build 0 {} calls
    (∀ nesting, ¬ [.package 0, .package 1] <+ cb.visit nesting ∧
      [.package 1, .typeAlias 0, .leavePackage 1] <+ cb.visit nesting ∧
      [.package 0, .cls 1, .leaveClass 1, .leavePackage 0] <+ cb.visit nesting ∧
      [.cls 1, .field 0, .leaveClass 1] <+ cb.visit nesting ∧
      [.cls 1, .constructor 1, .leaveClass 1] <+ cb.visit nesting ∧
      [.cls 0, .method 2, .leaveClass 0] <+ cb.visit nesting ∧ .method 1 ∉ cb.visit nesting) ∧
    [.cls 0, .cls 1, .leaveClass 1, .leaveClass 0] <+ cb.visit true ∧
      ¬ [.cls 0, .cls 1, .leaveClass 0] <+ cb.visit false := by
  intro int calls cb
  obtain ⟨htours, _, hnested, hmembers⟩ := visit_shapes 0 {} calls
  change ∀ nesting, cb.tables.Tours (cb.visit nesting) at htours
  have hkinds : (cb.tables.memberAt 0).kind = .field ∧
      (cb.tables.memberAt 1).kind = .constructor ∧ (cb.tables.memberAt 2).kind = .method := by
    decide +kernel
  have hclasses : (cb.tables.memberAt 0).declaredIn = 1 ∧
      (cb.tables.memberAt 1).declaredIn = 1 ∧ (cb.tables.memberAt 2).declaredIn = 0 := by
    decide +kernel
  have hnames : ¬ (cb.tables.packageAt 0).decl.name < (cb.tables.packageAt 1).decl.name := by
    decide +kernel
  have hsize : cb.tables.members.size = 3 := by decide +kernel
  refine ⟨fun nesting => ?_, ?_, ?_⟩
  · have hmember : ∀ m c kind, m < 3 → (cb.tables.memberAt m).declaredIn = c →
        (cb.tables.memberAt m).kind = kind →
        [.cls c, .ofMember kind m, .leaveClass c] <+ cb.visit nesting := by
      rintro m _ _ hm rfl rfl
      obtain ⟨v, hmet, hwithin⟩ := (htours nesting).members m (hsize.symm ▸ hm)
      rwa [← Tables.metBy_iff.mp hmet]
    refine ⟨?_, ?_, ?_, ?_, ?_, ?_, ?_⟩
    · exact mt ((htours nesting).packages 0 1) hnames
    · exact ((htours nesting).aliases 1 0).mpr (by decide +kernel)
    · exact ((htours nesting).classes 0 1).mpr (by decide +kernel)
    · exact hmember 0 1 .field (by decide) hclasses.1 hkinds.1
    · exact hmember 1 1 .constructor (by decide) hclasses.2.1 hkinds.2.1
    · exact hmember 2 0 .method (by decide) hclasses.2.2 hkinds.2.2
    · intro hmem
      cases ((htours nesting).mem_iff _).mp hmem with
      | member _ hmet =>
        cases hmet with
        | method kind => cases hkinds.2.1.symm.trans kind
  · have hnests : (cb.tables.classAt 1).container = some 0 := by decide +kernel
    exact (hnested 0 1).mpr (.single hnests)
  · intro hwithin
    obtain ⟨m, _, _, hmet⟩ := (hmembers 0 (.cls 1)).mp hwithin
    cases hmet

end ApiSurface
