import ApiSurface.Proofs.Ty.Renaming
import ApiSurface.Proofs.Ty.Substitution

/-!
The variables of a substituted tree.

A walk meets a variable exactly if one stands at some position of the tree, so the variables of an
edited tree are those of what the editor puts at these positions. A substitution puts the replacement
there as it is, or its root marked nullable over the same parts, and does not look inside. If no
replacement mentions a bound variable, none is left, and there is nothing to replace a second time.
-/

namespace ApiSurface

namespace Ty

theorem descend_append (t : Ty) (path below : List Nat) :
    t.descend (path ++ below) = (t.descend path).bind fun s => s.descend below := by
  induction path generalizing t with
  | nil => rfl
  | cons k ks ih =>
    rw [List.cons_append, descend, descend, Option.bind_assoc]
    exact Option.bind_congr fun c _ => ih c

/-- A variable at some position is the root, or it is at some position of a part. -/
theorem exists_descend_var_iff {P : List Nat → Variable → Prop} {t : Ty} :
    (∃ path v, t.descend path = some (var v) ∧ P path v) ↔
      (∃ v, t = var v ∧ P [] v) ∨
        ∃ k c, t.child? k = some c ∧
          ∃ path v, c.descend path = some (var v) ∧ P (k :: path) v := by
  constructor
  · rintro ⟨path, v, hv, hP⟩
    cases path with
    | nil => exact .inl ⟨v, Option.some.inj hv, hP⟩
    | cons k ks =>
      obtain ⟨c, hc, hv⟩ := descend_cons_eq_some_iff.mp hv
      exact .inr ⟨k, c, hc, ks, v, hv, hP⟩
  · rintro (⟨v, rfl, hP⟩ | ⟨k, c, hc, path, v, hv, hP⟩)
    · exact ⟨[], v, rfl, hP⟩
    · exact ⟨k :: path, v, descend_cons_eq_some_iff.mpr ⟨c, hc, hv⟩, hP⟩

theorem mem_variableNames_iff_event {t : Ty} {x : String} :
    x ∈ t.variableNames ↔ ∃ m, .var m x ∈ t.events := by
  rw [variableNames, List.mem_filterMap]
  constructor
  · rintro ⟨e, he, hx⟩
    cases e with
    | var m name =>
      obtain rfl := Option.some.inj hx
      exact ⟨m, he⟩
    | _ => cases hx
  · rintro ⟨m, hm⟩
    exact ⟨_, hm, rfl⟩

/-- A walk over the parts of a class type meets a variable if a walk over one of them does. -/
theorem var_mem_partEvents_iff {c : ClassTy} {m : TypeModifiers} {x : String} :
    .var m x ∈ c.partEvents ↔ ∃ k d, (cls c).child? k = some d ∧ .var m x ∈ d.events := by
  obtain ⟨i, n, name, o, as⟩ := c
  have houter : Event.var m x ∈ ClassTy.outerEvents o ↔
      ∃ d, (o.map cls) = some d ∧ .var m x ∈ d.events := by
    cases o with
    | none => simp [ClassTy.outerEvents]
    | some d => simp [ClassTy.outerEvents, events]
  rw [ClassTy.partEvents, List.mem_append, houter, eventsList_eq, List.mem_flatMap]
  constructor
  · rintro (⟨d, hd, hx⟩ | ⟨d, hd, hx⟩)
    · exact ⟨0, d, hd, hx⟩
    · obtain ⟨k, hk⟩ := List.mem_iff_getElem?.mp hd
      exact ⟨k + 1, d, hk, hx⟩
  · rintro ⟨k, d, hd, hx⟩
    cases k with
    | zero => exact .inl ⟨d, hd, hx⟩
    | succ k => exact .inr ⟨d, List.mem_of_getElem? hd, hx⟩

/-- A walk meets a variable at the root, or where it meets it in a part. -/
theorem var_mem_events_iff {t : Ty} {m : TypeModifiers} {x : String} :
    .var m x ∈ t.events ↔ (∃ v, t = var v ∧ v.mods = m ∧ v.name = x) ∨
      ∃ k c, t.child? k = some c ∧ .var m x ∈ c.events := by
  cases t with
  | primitive i n kind => simp [events, child?]
  | array i n varargs c =>
    have hparts : (∃ k d, (array i n varargs c).child? k = some d ∧ .var m x ∈ d.events) ↔
        .var m x ∈ c.events := by
      constructor
      · rintro ⟨k, d, hd, hx⟩
        cases k with
        | zero => exact Option.some.inj hd ▸ hx
        | succ k => cases hd
      · intro hx
        exact ⟨0, c, rfl, hx⟩
    simp [events, hparts]
  | cls c => simp [events, var_mem_partEvents_iff]
  | lambda s r c =>
    have hparts : ∀ k, (lambda s r c).child? k = (cls c).child? k := by
      intro k
      cases k <;> rfl
    simp [events, var_mem_partEvents_iff, hparts]
  | var v => simp [events, child?, eq_comm]
  | wildcard i n u l =>
    have hbound : ∀ b : Option Ty,
        Event.var m x ∈ eventsOption b ↔ ∃ c, b = some c ∧ .var m x ∈ c.events := by
      intro b
      cases b <;> simp [eventsOption]
    have hparts : (∃ k c, (wildcard i n u l).child? k = some c ∧ .var m x ∈ c.events) ↔
        .var m x ∈ eventsOption u ∨ .var m x ∈ eventsOption l := by
      rw [hbound, hbound]
      constructor
      · rintro ⟨k, c, hc, hx⟩
        rcases k with _ | _ | k
        · exact .inl ⟨c, hc, hx⟩
        · exact .inr ⟨c, hc, hx⟩
        · cases hc
      · rintro (⟨c, hc, hx⟩ | ⟨c, hc, hx⟩)
        · exact ⟨0, c, hc, hx⟩
        · exact ⟨1, c, hc, hx⟩
    simp [events, hparts]

theorem mem_variableNames_iff_parts {t : Ty} {x : String} :
    x ∈ t.variableNames ↔ (∃ v, t = var v ∧ v.name = x) ∨
      ∃ k c, t.child? k = some c ∧ x ∈ c.variableNames := by
  simp only [mem_variableNames_iff_event]
  constructor
  · rintro ⟨m, hm⟩
    rcases var_mem_events_iff.mp hm with ⟨v, hv, _, hx⟩ | ⟨k, c, hc, hm⟩
    · exact .inl ⟨v, hv, hx⟩
    · exact .inr ⟨k, c, hc, m, hm⟩
  · rintro (⟨v, hv, hx⟩ | ⟨k, c, hc, m, hm⟩)
    · exact ⟨v.mods, var_mem_events_iff.mpr (.inl ⟨v, hv, rfl, hx⟩)⟩
    · exact ⟨m, var_mem_events_iff.mpr (.inr ⟨k, c, hc, hm⟩)⟩

/-- A walk meets the variables that stand at some position. -/
theorem mem_variableNames_iff {t : Ty} {x : String} :
    x ∈ t.variableNames ↔ ∃ path v, t.descend path = some (var v) ∧ v.name = x := by
  induction t using induct_child with
  | node t ih =>
    rw [mem_variableNames_iff_parts, exists_descend_var_iff]
    refine or_congr Iff.rfl (exists_congr fun k => exists_congr fun c => ?_)
    exact and_congr_right fun hc => ih k c hc

theorem mem_variableNames_var {v : Variable} {x : String} :
    x ∈ (var v).variableNames ↔ v.name = x := by
  rw [eq_comm]
  exact List.mem_singleton

theorem descend_withModifiers (p : Ident) (m : TypeModifiers) (t : Ty) (k : Nat)
    (below : List Nat) : (t.withModifiers p m).descend (k :: below) = t.descend (k :: below) := by
  rw [descend, descend, child?_withModifiers]

theorem mem_variableNames_withModifiers (p : Ident) (m : TypeModifiers) {t : Ty} {x : String} :
    x ∈ (t.withModifiers p m).variableNames ↔ x ∈ t.variableNames := by
  rw [mem_variableNames_iff_parts, mem_variableNames_iff_parts (t := t)]
  simp only [child?_withModifiers]
  refine or_congr ?_ Iff.rfl
  cases t with
  | var v => simp [withModifiers]
  | _ => simp [withModifiers]

end Ty

/-- The variables of an edited tree are those of what the editor makes of its variables. -/
theorem Editor.Thorough.mem_variableNames_edit_iff {e : Editor} (he : e.Thorough) (p : Ident)
    {t : Ty} {x : String} :
    x ∈ (e.edit p t).variableNames ↔
      ∃ path v, t.descend path = some (.var v) ∧
        x ∈ (e.editVar (p.along path) v).variableNames := by
  induction t using Ty.induct_child generalizing p with
  | node t ih =>
    rw [Ty.exists_descend_var_iff]
    by_cases hkind : t.kind = .var
    · cases t with
      | var v =>
        rw [edit]
        constructor
        · intro hx
          exact .inl ⟨v, rfl, hx⟩
        · rintro (⟨w, hw, hx⟩ | ⟨k, c, hc, _⟩)
          · obtain rfl := Ty.var.inj hw
            exact hx
          · cases hc
      | _ => cases hkind
    · have hroot : ∀ {Q : Variable → Prop}, ¬ ∃ v, t = .var v ∧ Q v := by
        rintro Q ⟨v, rfl, _⟩
        exact hkind rfl
      have hroot' : ¬ ∃ v, e.edit p t = .var v ∧ v.name = x := by
        rintro ⟨v, hv, _⟩
        apply hkind
        rw [← he.kind_edit p hkind, hv, Ty.kind]
      rw [Ty.mem_variableNames_iff_parts, or_iff_right hroot', or_iff_right hroot]
      simp only [he.child?_edit p hkind]
      constructor
      · rintro ⟨k, d, hd, hx⟩
        obtain ⟨c, hc, rfl⟩ := Option.map_eq_some_iff.mp hd
        exact ⟨k, c, hc, (ih k c hc _).mp hx⟩
      · rintro ⟨k, c, hc, hx⟩
        refine ⟨k, e.edit (p.child k) c, ?_, (ih k c hc _).mpr hx⟩
        rw [hc, Option.map_some]

namespace Bindings

/-- No replacement mentions a bound variable. -/
def Resolved (s : Bindings) : Prop :=
  ∀ (y : String) (r : Ty), s[y]? = some r → ∀ x ∈ r.variableNames, s[x]? = none

theorem editVar_of_unbound {s : Bindings} {v : Variable} (hv : s[v.name]? = none) (p : Ident) :
    s.editor.editVar p v = .var v := by
  rw [editVar_eq, hv]
  rfl

theorem keepsNode_of_unbound {s : Bindings} {t : Ty} (ht : ∀ v, t = .var v → s[v.name]? = none)
    (p : Ident) : Editor.KeepsNode s.editor.modifiers s.editor.replace? p t := by
  cases t with
  | var v =>
    rw [← Editor.editVar_eq_self_iff (s.thorough_editor.keeps .var)]
    exact editVar_of_unbound (ht v rfl) p
  | _ => exact .node (by intro h; cases h) rfl

theorem editVar_of_bound {s : Bindings} {v : Variable} {r : Ty} (hv : s[v.name]? = some r)
    (p : Ident) : s.editor.editVar p v =
      if v.mods.nullability = .nullable then r.withNullability p .nullable else r := by
  rw [editVar_eq, hv]
  rfl

theorem mem_variableNames_editVar_iff {s : Bindings} {p : Ident} {v : Variable} {x : String} :
    x ∈ (s.editor.editVar p v).variableNames ↔
      (v.name = x ∧ s[v.name]? = none) ∨ ∃ r, s[v.name]? = some r ∧ x ∈ r.variableNames := by
  cases hv : s[v.name]? with
  | none => simp [editVar_of_unbound hv, Ty.mem_variableNames_var]
  | some r =>
    rw [editVar_of_bound hv]
    split_ifs
    · simp [Ty.withNullability, Ty.mem_variableNames_withModifiers]
    · simp

/-- Without bindings, a substitution is the edit that changes nothing. -/
theorem substitute_eq_edit (s : Bindings) (p : Ident) (t : Ty) :
    t.substitute p s = s.editor.edit p t := by
  rw [Ty.substitute]
  split_ifs with hempty
  · symm
    rw [s.thorough_editor.edit_eq_self_iff_nodes]
    intro path u _
    exact keepsNode_of_unbound (fun _ _ => Std.TreeMap.getElem?_of_isEmpty hempty) _
  · rfl

theorem substitute_eq_self {s : Bindings} {t : Ty} (ht : ∀ x ∈ t.variableNames, s[x]? = none)
    (p : Ident) : t.substitute p s = t := by
  rw [substitute_eq_edit, s.thorough_editor.edit_eq_self_iff_nodes]
  intro path u hu
  refine keepsNode_of_unbound ?_ _
  rintro v rfl
  exact ht v.name (Ty.mem_variableNames_iff.mpr ⟨path, v, hu, rfl⟩)

theorem mem_variableNames_substitute_iff (s : Bindings) (p : Ident) (t : Ty) (x : String) :
    x ∈ (t.substitute p s).variableNames ↔
      (x ∈ t.variableNames ∧ s[x]? = none) ∨
        ∃ y r, y ∈ t.variableNames ∧ s[y]? = some r ∧ x ∈ r.variableNames := by
  rw [substitute_eq_edit, s.thorough_editor.mem_variableNames_edit_iff]
  simp only [mem_variableNames_editVar_iff, Ty.mem_variableNames_iff (t := t)]
  constructor
  · rintro ⟨path, v, hv, ⟨rfl, hnone⟩ | ⟨r, hr, hx⟩⟩
    · exact .inl ⟨⟨path, v, hv, rfl⟩, hnone⟩
    · exact .inr ⟨v.name, r, ⟨path, v, hv, rfl⟩, hr, hx⟩
  · rintro (⟨⟨path, v, hv, rfl⟩, hnone⟩ | ⟨y, r, ⟨path, v, hv, rfl⟩, hr, hx⟩)
    · exact ⟨path, v, hv, .inl ⟨rfl, hnone⟩⟩
    · exact ⟨path, v, hv, .inr ⟨r, hr, hx⟩⟩

theorem Resolved.unbound_of_mem {s : Bindings} (hs : s.Resolved) {p : Ident} {t : Ty} {x : String}
    (hx : x ∈ (t.substitute p s).variableNames) : s[x]? = none := by
  rcases (s.mem_variableNames_substitute_iff p t x).mp hx with ⟨_, hnone⟩ | ⟨y, r, _, hr, hx⟩
  · exact hnone
  · exact hs y r hr x hx

/-- Where a variable stands in a tree, the substituted tree has what becomes of the variable. -/
theorem descend_substitute (s : Bindings) (p : Ident) {t : Ty} {path : List Nat} {v : Variable}
    (hv : t.descend path = some (.var v)) :
    (t.substitute p s).descend path = some (s.editor.editVar (p.along path) v) := by
  rw [substitute_eq_edit, s.thorough_editor.descend_edit hv, Editor.edit]

end Bindings

/-- A substitution replaces all bound variables at once. Its result has the variables of the tree
that are not bound and those of the replacements for the bound ones. Where a bound variable stands,
the result has the replacement itself, marked nullable if that use of the variable is, and below it
nothing but the parts of the replacement. If no replacement mentions a bound variable, none is left,
and a second substitution returns the same instance. -/
theorem Ty.substitute_simultaneous (p : Ident) (s : Bindings) (t : Ty) :
    (∀ x, x ∈ (t.substitute p s).variableNames ↔
      (x ∈ t.variableNames ∧ s[x]? = none) ∨
        ∃ y r, y ∈ t.variableNames ∧ s[y]? = some r ∧ x ∈ r.variableNames) ∧
    (∀ path v r, t.descend path = some (.var v) → s[v.name]? = some r →
      (v.mods.nullability ≠ .nullable → (t.substitute p s).descend path = some r) ∧
      (v.mods.nullability = .nullable → (t.substitute p s).descend path =
        some (r.withNullability (p.along path) .nullable)) ∧
      ∀ k below, (t.substitute p s).descend (path ++ k :: below) = r.descend (k :: below)) ∧
    (s.Resolved →
      (∀ x ∈ (t.substitute p s).variableNames, s[x]? = none) ∧
      ∀ q, (t.substitute p s).substitute q s = t.substitute p s) := by
  refine ⟨s.mem_variableNames_substitute_iff p t, ?_, ?_⟩
  · intro path v r hv hr
    have hat := s.descend_substitute p hv
    rw [Bindings.editVar_of_bound hr] at hat
    refine ⟨fun hplain => ?_, fun hnullable => ?_, fun k below => ?_⟩
    · rw [hat, if_neg hplain]
    · rw [hat, if_pos hnullable]
    · rw [descend_append, hat, Option.bind_some]
      split_ifs
      · exact descend_withModifiers _ _ r k below
      · rfl
  · intro hs
    refine ⟨fun x hx => hs.unbound_of_mem hx, fun q => ?_⟩
    exact Bindings.substitute_eq_self (fun x hx => hs.unbound_of_mem hx) q

/-- In `p.Outer<T>.Inner<? super T?, U>` both uses of `T` become `java.util.List<V>`, the first one
as it is and the second one with a mark. -/
theorem Ty.substitute_simultaneous_outer :
    let list : Ty := .cls ⟨⟨1, []⟩, {}, "java.util.List", none, [.var { name := "V" }]⟩
    let inWildcard : Variable := { mods := { nullability := .nullable }, name := "T" }
    let t : Ty := .cls ⟨{}, {}, "p.Outer.Inner",
      some ⟨{}, {}, "p.Outer", none, [.var { name := "T" }]⟩,
      [.wildcard {} {} none (some (.var inWildcard)), .var { name := "U" }]⟩
    let s : Bindings := .ofList [("T", list)]
    let result := t.substitute ⟨2, []⟩ s
    s.Resolved ∧ result.descend [0, 1] = some list ∧
      result.descend [1, 1] = some (list.withNullability ⟨2, [1, 1]⟩ .nullable) ∧
      "T" ∉ result.variableNames ∧ "V" ∈ result.variableNames ∧
      ∀ q, result.substitute q s = result := by
  intro list inWildcard t s result
  have hlookup : ∀ x : String, s[x]? = if "T" = x then some list else none := by
    intro x
    have hsingle : s = Std.TreeMap.insert ∅ "T" list := Std.TreeMap.ofList_singleton
    rw [hsingle, Std.TreeMap.getElem?_insert]
    simp
  have hbound : s["T"]? = some list := (hlookup "T").trans (if_pos rfl)
  have hs : s.Resolved := by
    intro y r hr x hx
    rw [hlookup] at hr
    split_ifs at hr
    cases hr
    obtain rfl := List.mem_singleton.mp hx
    exact (hlookup "V").trans (if_neg (by decide))
  obtain ⟨hnames, hplaces, hresolved⟩ := substitute_simultaneous ⟨2, []⟩ s t
  obtain ⟨hunbound, hagain⟩ := hresolved hs
  refine ⟨hs, ?_, ?_, ?_, ?_, hagain⟩
  · exact (hplaces [0, 1] { name := "T" } list rfl hbound).1 (by decide)
  · exact (hplaces [1, 1] inWildcard list rfl hbound).2.1 rfl
  · intro hT
    cases hbound.symm.trans (hunbound "T" hT)
  · exact (hnames "V").mpr (.inr ⟨"T", list, by decide, hbound, by decide⟩)

/-- Replacements are not replaced again: two variables change places. -/
example :
    let t : Ty := .cls ⟨{}, {}, "p.Pair", none, [.var { name := "T" }, .var { name := "U" }]⟩
    let s : Bindings := .ofList [("T", Ty.var { name := "U" }), ("U", Ty.var { name := "T" })]
    (t.substitute {} s).variableNames = ["U", "T"] := by
  decide +kernel

end ApiSurface
