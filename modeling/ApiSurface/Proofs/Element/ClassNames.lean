import ApiSurface.Proofs.Codebase.History
import ApiSurface.Proofs.Ty.Renaming

/-!
The names of classes and of their types.

A class is named inside its container, and a class that is not static has the type of its container
around its own. So the erased text of its type, which is put together from relative names, is the
name of the class.

There are three short names of a class: relative to its container or package, relative to the type
around its own type, and the last segment, after which constructors are named. A class may be named
more than one segment below its container or package; the three then agree in the last segment only.
-/

namespace ApiSurface

namespace ClassTy

/-- In the chain of outer types from the class type on, each name is that of the next outer type, a
dot and a rest. -/
inductive NamedInside : ClassTy → Prop where
  | topLevel {c : ClassTy} (outer : c.outer = none) : NamedInside c
  | inner {c o : ClassTy} {rest : String} (outer : c.outer = some o)
      (name : c.name = o.name ++ "." ++ rest) (nonempty : rest ≠ "") (around : NamedInside o) :
      NamedInside c

theorem simpleName_of_outer {c o : ClassTy} {rest : String} (outer : c.outer = some o)
    (name : c.name = o.name ++ "." ++ rest) : c.simpleName = rest := by
  rw [simpleName, outer, Option.bind_some, Text.afterDot?_eq_some_iff.mpr name]

theorem simpleName_of_topLevel {c : ClassTy} (outer : c.outer = none) :
    c.simpleName = Text.lastSegment c.name := by
  rw [simpleName, outer, Option.bind_none]

theorem NamedInside.render_erasure {c : ClassTy} (h : c.NamedInside) :
    c.render .erasure = c.name := by
  induction h with
  | topLevel outer => rw [render_of_erased rfl, outer]
  | @inner c o rest outer name _ _ ih =>
    have hforOuter : RenderOptions.erasure.forOuter = .erasure := rfl
    rw [render_of_erased rfl, outer]
    show o.render RenderOptions.erasure.forOuter ++ "." ++ c.simpleName = c.name
    rw [hforOuter, ih, simpleName_of_outer outer name, name]

end ClassTy

theorem Ty.erasedText_of_asClass? {t : Ty} {c : ClassTy} (ht : t.asClass? = some c) :
    t.erasedText = c.render .erasure := by
  cases t with
  | cls d =>
    cases ht
    rfl
  | lambda suspend receiver d =>
    cases ht
    rfl
  | _ => cases ht

namespace Tables.Linked

variable {t : Tables} (h : t.Linked)
include h

/-- A nested class is named inside its container. -/
theorem exists_name_of_nests {outer c : ClassId} (hnests : t.Nests outer c) :
    ∃ rest, rest ≠ "" ∧ (t.classAt c).decl.name = (t.classAt outer).decl.name ++ "." ++ rest := by
  have he := Array.getElem?_eq_getElem (h.container_lt hnests).2
  rw [Nests, classAt_eq he] at hnests
  obtain ⟨_, o, ho, _, _, rest, hrest, hname⟩ := h.isForest.container c outer _ he hnests
  exact ⟨rest, hrest, by rw [classAt_eq he, classAt_eq ho, hname]⟩

theorem name_classTy (p : Ident) (c : ClassId) :
    (t.classTy p c).name = (t.classAt c).decl.name := by
  rw [h.classTy_eq, classTyInside]

theorem outer_classTy (p : Ident) (c : ClassId) :
    (t.classTy p c).outer = (t.outerClass? c).map (t.classTy (p.child 0)) := by
  rw [h.classTy_eq, classTyInside]

omit h in
theorem nests_of_outerClass? {c outer : ClassId} (houter : t.outerClass? c = some outer) :
    t.Nests outer c := by
  rw [outerClass?, Option.ite_none_left_eq_some] at houter
  exact houter.2

theorem namedInside_classTy (p : Ident) (c : ClassId) : (t.classTy p c).NamedInside := by
  induction c using Nat.strongRecOn generalizing p with
  | ind c ih =>
    have houterTy := h.outer_classTy p c
    cases houter : t.outerClass? c with
    | none =>
      rw [houter, Option.map_none] at houterTy
      exact .topLevel houterTy
    | some outer =>
      obtain ⟨rest, hrest, hname⟩ := h.exists_name_of_nests (nests_of_outerClass? houter)
      rw [houter, Option.map_some] at houterTy
      refine .inner houterTy ?_ hrest (ih outer (h.outerClass?_lt houter) (p.child 0))
      rw [h.name_classTy, h.name_classTy, hname]

end Tables.Linked

/-- The erased text of the type of a class is the name of the class, at whatever depth it is nested.
More generally the erased text of a class or a lambda is its name if in the chain of its outer types
each name lies inside the next outer one. -/
theorem Codebase.erasedText_classTy (number : Nat) (settings : Settings) (calls : List Call) :
    (∀ id c, (build number settings calls).class? id = some c →
      ∀ p, (Ty.cls (c.classTy p)).erasedText = c.name) ∧
    ∀ (t : Ty) (c : ClassTy), t.asClass? = some c → c.NamedInside → t.erasedText = c.name := by
  constructor
  · intro id c hc p
    obtain ⟨_, rfl⟩ := class?_eq_some_iff.mp hc
    have hlinked := Tables.linked_run calls
    exact (hlinked.namedInside_classTy p id).render_erasure.trans (hlinked.name_classTy p id)
  · intro t c ht hc
    rw [Ty.erasedText_of_asClass? ht, hc.render_erasure]

/-- A generic class, in it a static one, and in that a class with type variables whose name goes on
with two segments. -/
def layeredCalls : List Call :=
  [.addPackage { name := "p" },
    .addClass 0 none { name := "p.Outer", typeParameters := [{ name := "T" }] },
    .addClass 0 (some 0) { name := "p.Outer.Middle", modifiers := { isStatic := true } },
    .addClass 0 (some 1)
      { name := "p.Outer.Middle.Inner.Part", typeParameters := [{ name := "T" }, { name := "U" }] },
    .addMember 2 { kind := .constructor }]

/-- The innermost class has the type of the static class around its own type, and nothing is around
that. A nullable type of the same names has the same erased text. -/
theorem Codebase.erasedText_classTy_layered :
    let cb := build 0 {} layeredCalls
    let middle : ClassTy := ⟨{}, {}, "p.Outer.Middle", none, []⟩
    let inner : ClassTy :=
      ⟨{}, { nullability := .nullable }, "p.Outer.Middle.Inner.Part", some middle, []⟩
    cb.class? 2 = some ⟨cb, 2⟩ ∧ inner.NamedInside ∧
      (Ty.cls (ClassRef.classTy ⟨cb, 2⟩ {})).erasedText = "p.Outer.Middle.Inner.Part" ∧
      (Ty.lambda false false inner).erasedText = "p.Outer.Middle.Inner.Part" := by
  intro cb middle inner
  obtain ⟨hclass, htype⟩ := erasedText_classTy 0 {} layeredCalls
  have hc : cb.class? 2 = some ⟨cb, 2⟩ := rfl
  have hinner : inner.NamedInside := by
    have hname : inner.name = middle.name ++ "." ++ "Inner.Part" := by decide
    exact .inner rfl hname (by decide) (.topLevel rfl)
  exact ⟨hc, hinner, (hclass 2 _ hc {}).trans (by decide +kernel), htype _ inner rfl hinner⟩

namespace ClassRef

/-- The class is nested and not static, so that its type lies inside that of its container. -/
def IsInner (c : ClassRef) : Prop :=
  c.entry.decl.modifiers.isStatic = false ∧ c.container?.isSome = true

variable {cb : Codebase} {id : ClassId}

theorem isInner_iff : IsInner ⟨cb, id⟩ ↔ ∃ outer, cb.tables.outerClass? id = some outer := by
  simp only [IsInner, entry, container?, Option.isSome_map, Option.isSome_iff_exists,
    Tables.outerClass?, Option.ite_none_left_eq_some, Bool.not_eq_true, exists_and_left]

theorem lastSegment_simpleName (c : ClassRef) :
    Text.lastSegment c.simpleName = Text.lastSegment c.name := by
  obtain ⟨around, haround⟩ :
      ∃ around, c.simpleName = (Text.afterDot? around c.name).getD c.name := ⟨_, rfl⟩
  rw [haround]
  cases hrest : Text.afterDot? around c.name with
  | none => rfl
  | some rest =>
    rw [Option.getD_some, Text.afterDot?_eq_some_iff.mp hrest, Text.lastSegment_append_dot]

theorem simpleName_of_container {outer : ClassRef} {c : ClassRef} {rest : String}
    (hcontainer : c.container? = some outer) (hname : c.name = outer.name ++ "." ++ rest) :
    c.simpleName = rest := by
  rw [simpleName, hcontainer]
  dsimp only
  rw [Text.afterDot?_eq_some_iff.mpr hname, Option.getD_some]

/-- The type of an inner class is named relative to the type of its container, as the class is. -/
theorem simpleName_classTy_of_isInner (h : cb.tables.Linked) (hinner : IsInner ⟨cb, id⟩)
    (p : Ident) : (classTy ⟨cb, id⟩ p).simpleName = simpleName ⟨cb, id⟩ := by
  obtain ⟨outer, houter⟩ := isInner_iff.mp hinner
  have hnests := Tables.Linked.nests_of_outerClass? houter
  obtain ⟨rest, _, hname⟩ := h.exists_name_of_nests hnests
  have houterTy := h.outer_classTy p id
  rw [houter, Option.map_some] at houterTy
  have hcontainer : container? ⟨cb, id⟩ = some ⟨cb, outer⟩ := congrArg _ hnests
  have hnameTy : (cb.tables.classTy p id).name =
      (cb.tables.classTy (p.child 0) outer).name ++ "." ++ rest := by
    rw [h.name_classTy, h.name_classTy, hname]
  rw [simpleName_of_container hcontainer hname]
  exact ClassTy.simpleName_of_outer houterTy hnameTy

/-- The type of any other class has the last segment as its short name. -/
theorem simpleName_classTy_of_not_isInner (h : cb.tables.Linked) (hinner : ¬ IsInner ⟨cb, id⟩)
    (p : Ident) :
    (classTy ⟨cb, id⟩ p).simpleName = Text.lastSegment (simpleName ⟨cb, id⟩) := by
  have hnone : cb.tables.outerClass? id = none := by
    rw [Option.eq_none_iff_forall_ne_some]
    intro outer houter
    exact hinner (isInner_iff.mpr ⟨outer, houter⟩)
  have houterTy := h.outer_classTy p id
  rw [hnone, Option.map_none] at houterTy
  have hname : (classTy ⟨cb, id⟩ p).name = name ⟨cb, id⟩ := h.name_classTy p id
  rw [lastSegment_simpleName, ← hname]
  exact ClassTy.simpleName_of_topLevel houterTy

end ClassRef

/-- Among the calls there is one that declares a constructor without a name in the class `c`, and it
got the number `n`. -/
def Tables.NamelessConstructor (calls : List Call) (c : ClassId) (n : MemberId) : Prop :=
  ∃ decl, (Call.addMember c decl, n) ∈ created (kept {} calls) ∧
    decl.kind = .constructor ∧ decl.name = ""

namespace ClassRef

theorem exists_namelessConstructor {number : Nat} {settings : Settings} {calls : List Call}
    {id : ClassId} {n : MemberId} (h : Tables.NamelessConstructor calls id n) :
    let c : ClassRef := ⟨.build number settings calls, id⟩
    ∃ m ∈ c.members, m.id = n ∧ m.kind = .constructor ∧
      m.name = Text.lastSegment c.simpleName := by
  intro c
  obtain ⟨decl, hcreated, hkind, hname⟩ := h
  obtain ⟨e, he, hdeclared⟩ := Tables.exists_declaredAs hcreated
  have hentry : c.codebase.tables.memberAt n = e := Tables.memberAt_eq he
  have hmember : n ∈ c.entry.members := by
    refine (Tables.linked_run calls).mem_members_iff.mpr ⟨(Array.getElem?_eq_some_iff.mp he).1, ?_⟩
    exact (congrArg MemberEntry.declaredIn hentry).trans hdeclared.declaredIn
  refine ⟨_, List.mem_map_of_mem hmember, rfl, ?_, ?_⟩
  · exact (congrArg MemberEntry.kind hentry).trans (hdeclared.kind.trans hkind)
  · have hsegment := Text.isLastSegment_iff.mp (hdeclared.className hkind hname)
    rw [c.lastSegment_simpleName]
    exact (congrArg MemberEntry.name hentry).trans hsegment

/-- The short names of a class agree in their last segment, by which constructors without a name
are named. The name relative to container or package is the short name of its type exactly if the
class is inner or this name has one segment, and it is the name of those constructors exactly if it
has one segment. -/
theorem simpleName_agrees_iff (number : Nat) (settings : Settings) (calls : List Call)
    (id : ClassId) (c : ClassRef) (hc : (Codebase.build number settings calls).class? id = some c) :
    (∀ p, Text.lastSegment (c.classTy p).simpleName = Text.lastSegment c.simpleName) ∧
    (∀ p, (c.classTy p).simpleName = c.simpleName ↔ c.IsInner ∨ '.' ∉ c.simpleName.toList) ∧
    ∀ n, Tables.NamelessConstructor calls id n →
      ∃ m ∈ c.members, m.id = n ∧ m.kind = .constructor ∧
        m.name = Text.lastSegment c.simpleName ∧
        (m.name = c.simpleName ↔ '.' ∉ c.simpleName.toList) ∧
        ∀ p, m.name = (c.classTy p).simpleName ↔ ¬ c.IsInner ∨ '.' ∉ c.simpleName.toList := by
  obtain ⟨_, rfl⟩ := Codebase.class?_eq_some_iff.mp hc
  have hlinked := Tables.linked_run calls
  refine ⟨fun p => ?_, fun p => ?_, fun n hn => ?_⟩
  · by_cases hinner : IsInner ⟨.build number settings calls, id⟩
    · rw [simpleName_classTy_of_isInner hlinked hinner]
    · rw [simpleName_classTy_of_not_isInner hlinked hinner, Text.lastSegment_lastSegment]
  · by_cases hinner : IsInner ⟨.build number settings calls, id⟩
    · exact iff_of_true (simpleName_classTy_of_isInner hlinked hinner p) (.inl hinner)
    · rw [simpleName_classTy_of_not_isInner hlinked hinner, or_iff_right hinner,
        Text.lastSegment_eq_self_iff]
  · obtain ⟨m, hm, hid, hkind, hname⟩ := exists_namelessConstructor hn
    refine ⟨m, hm, hid, hkind, hname, ?_, fun p => ?_⟩
    · rw [hname, Text.lastSegment_eq_self_iff]
    · by_cases hinner : IsInner ⟨.build number settings calls, id⟩
      · rw [simpleName_classTy_of_isInner hlinked hinner, hname, Text.lastSegment_eq_self_iff,
          or_iff_right (not_not_intro hinner)]
      · rw [simpleName_classTy_of_not_isInner hlinked hinner, hname]
        exact iff_of_true rfl (.inl hinner)

/-- A class with two segments below its container, which has a nameless constructor: its type has
the same short name, and the constructor has the last segment. -/
theorem simpleName_agrees_iff_layered :
    let cb := Codebase.build 0 {} layeredCalls
    let c : ClassRef := ⟨cb, 2⟩
    cb.class? 2 = some c ∧ Tables.NamelessConstructor layeredCalls 2 0 ∧
      c.simpleName = "Inner.Part" ∧ (c.classTy {}).simpleName = "Inner.Part" ∧
      ∃ m ∈ c.members, m.id = 0 ∧ m.name = "Part" := by
  intro cb c
  have hc : cb.class? 2 = some c := rfl
  have hnameless : Tables.NamelessConstructor layeredCalls 2 0 :=
    ⟨{ kind := .constructor }, by decide +kernel, rfl, rfl⟩
  have hsimple : c.simpleName = "Inner.Part" := by decide +kernel
  obtain ⟨_, htype, hconstructor⟩ := simpleName_agrees_iff 0 {} layeredCalls 2 c hc
  obtain ⟨m, hm, hid, _, hname, _⟩ := hconstructor 0 hnameless
  refine ⟨hc, hnameless, hsimple, ?_, m, hm, hid, ?_⟩
  · rw [(htype {}).mpr (.inl ⟨rfl, rfl⟩), hsimple]
  · rw [hname, hsimple]
    decide

/-- A class that is named two segments below its package: its own short name has both, that of its
type and the name of its constructor have the last one only. -/
theorem simpleName_twoSegments :
    let calls : List Call :=
      [.addPackage { name := "p" }, .addClass 0 none { name := "p.a.C" },
        .addMember 0 { kind := .constructor }]
    let cb := Codebase.build 0 {} calls
    let c : ClassRef := ⟨cb, 0⟩
    cb.class? 0 = some c ∧ Tables.NamelessConstructor calls 0 0 ∧ c.simpleName = "a.C" ∧
      (c.classTy {}).simpleName = "C" ∧ c.members.map (·.name) = ["C"] ∧
      ¬ (c.simpleName = (c.classTy {}).simpleName ∧ ∀ m ∈ c.members, m.name = c.simpleName) := by
  intro calls cb c
  have hnameless : Tables.NamelessConstructor calls 0 0 :=
    ⟨{ kind := .constructor }, by decide +kernel, rfl, rfl⟩
  have hsimple : c.simpleName = "a.C" := by decide +kernel
  have htype : (c.classTy {}).simpleName = "C" := by decide +kernel
  refine ⟨rfl, hnameless, hsimple, htype, by decide +kernel, fun h => ?_⟩
  have hne := h.1
  rw [hsimple, htype] at hne
  exact absurd hne (by decide)

end ClassRef

end ApiSurface
