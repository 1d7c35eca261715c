import ApiSurface.Proofs.Ty.Substitution
import ApiSurface.Ty.Event

/-!
What a walk over a substituted tree meets.

A walk and a substitution descend into the same parts in the same order. So of the nodes that a walk
meets by their kinds, a substitution changes bound variables only: in the place of each the walk
meets its whole replacement. `Bindings.Expands` says this of two lists of steps, and is put together
along the tree.
-/

namespace ApiSurface

/-- Whether a step meets a node by its kind, not as a type. -/
def Ty.Event.isOfKind : Ty.Event → Bool
  | .type _ => false
  | _ => true

/-- The steps of a walk that meet nodes by their kinds. -/
def Ty.kindEvents (t : Ty) : List Ty.Event := t.events.filter Ty.Event.isOfKind

/-- The steps over the parts of a class type that meet nodes by their kinds. -/
def ClassTy.partKindEvents (c : ClassTy) : List Ty.Event := c.partEvents.filter Ty.Event.isOfKind

namespace Ty

theorem kindEvents_array (i : Ident) (m : TypeModifiers) (v : Bool) (c : Ty) :
    (array i m v c).kindEvents = .array m v :: c.kindEvents := rfl

theorem kindEvents_cls (c : ClassTy) :
    (cls c).kindEvents = .cls c.mods c.name :: c.partKindEvents := rfl

theorem kindEvents_lambda (s r : Bool) (c : ClassTy) :
    (lambda s r c).kindEvents =
      .cls c.mods c.name :: .lambda c.mods c.name :: c.partKindEvents := rfl

theorem kindEvents_wildcard (i : Ident) (m : TypeModifiers) (u l : Option Ty) :
    (wildcard i m u l).kindEvents =
      .wildcard m :: (u.elim [] kindEvents ++ l.elim [] kindEvents) := by
  have hbound : ∀ b : Option Ty,
      (eventsOption b).filter Event.isOfKind = b.elim [] kindEvents := by
    intro b
    cases b <;> rfl
  rw [kindEvents, events, List.filter_cons_of_neg Bool.false_ne_true, List.filter_cons_of_pos rfl,
    List.filter_append, hbound, hbound]

end Ty

theorem ClassTy.partKindEvents_mk (i : Ident) (m : TypeModifiers) (n : String) (o : Option ClassTy)
    (as : List Ty) : partKindEvents ⟨i, m, n, o, as⟩ =
      o.elim [] (fun c => (Ty.cls c).kindEvents) ++ as.flatMap Ty.kindEvents := by
  have houter : (outerEvents o).filter Ty.Event.isOfKind =
      o.elim [] fun c => (Ty.cls c).kindEvents := by
    cases o <;> rfl
  rw [partKindEvents, partEvents, List.filter_append, houter, Ty.eventsList_eq, List.filter_flatMap]
  rfl

namespace Bindings

/-- What is met in the place of a step when bound variables are replaced: at a bound variable the
whole of its replacement, marked at `p` where that use of the variable is nullable. -/
def expand (s : Bindings) (p : Ident) : Ty.Event → List Ty.Event
  | .var m x =>
    match s[x]? with
    | some t =>
      if m.nullability = .nullable then (t.withNullability p .nullable).kindEvents else t.kindEvents
    | none => [.var m x]
  | e => [e]

/-- The second list is the first with every step expanded, each at some place. -/
inductive Expands (s : Bindings) : List Ty.Event → List Ty.Event → Prop where
  | nil : Expands s [] []
  | cons (p : Ident) (e : Ty.Event) {es es' : List Ty.Event} (rest : Expands s es es') :
      Expands s (e :: es) (s.expand p e ++ es')

namespace Expands

variable {s : Bindings} {es es' fs fs' : List Ty.Event}

theorem append (h : s.Expands es es') (h' : s.Expands fs fs') :
    s.Expands (es ++ fs) (es' ++ fs') := by
  induction h with
  | nil => exact h'
  | cons p e _ ih =>
    rw [List.append_assoc]
    exact .cons p e ih

/-- The places can be given by the numbers of the steps. -/
theorem exists_place (h : s.Expands es es') :
    ∃ place : Nat → Ident, es' = (es.mapIdx fun k e => s.expand (place k) e).flatten := by
  induction h with
  | nil => exact ⟨fun _ => {}, rfl⟩
  | cons p e _ ih =>
    obtain ⟨place, rfl⟩ := ih
    refine ⟨fun k => k.casesOn p place, ?_⟩
    rw [List.mapIdx_cons, List.flatten_cons]
    rfl

theorem bound {b : Option Ty} {f : Ty → Ty}
    (h : ∀ t ∈ b, s.Expands t.kindEvents (f t).kindEvents) :
    s.Expands (b.elim [] Ty.kindEvents) ((b.map f).elim [] Ty.kindEvents) := by
  cases b with
  | none => exact .nil
  | some t => exact h t rfl

/-- The arguments of an edited class type, when the first one has the number `k`. -/
theorem editArgs {p : Ident} {as : List Ty}
    (h : ∀ t ∈ as, ∀ p, s.Expands t.kindEvents (s.editor.edit p t).kindEvents) (k : Nat) :
    s.Expands (as.flatMap Ty.kindEvents) ((s.editor.editArgs p k as).flatMap Ty.kindEvents) := by
  induction as generalizing k with
  | nil => exact .nil
  | cons t ts ih =>
    rw [Editor.editArgs_cons, List.flatMap_cons, List.flatMap_cons]
    have hrest := ih (fun u hu => h u (List.mem_cons_of_mem t hu)) (k + 1)
    exact (h t List.mem_cons_self _).append hrest

end Expands

theorem expands_editVar (s : Bindings) (p : Ident) (v : Variable) :
    s.Expands (Ty.var v).kindEvents (s.editor.editVar p v).kindEvents := by
  have hexpand : (s.editor.editVar p v).kindEvents = s.expand p (.var v.mods v.name) ++ [] := by
    rw [editVar_eq, expand, List.append_nil]
    cases s[v.name]? with
    | none => rfl
    | some t => exact apply_ite Ty.kindEvents _ _ _
  rw [hexpand]
  exact .cons p _ .nil

theorem expands_edit (s : Bindings) :
    (∀ t p, s.Expands t.kindEvents (s.editor.edit p t).kindEvents) ∧
      ∀ c p, s.Expands c.partKindEvents (s.editor.rebuild p c).partKindEvents := by
  have he := s.thorough_editor
  apply Ty.induct
  case primitive =>
    intro i m k p
    rw [he.edit_primitive]
    exact .cons p (.primitive m k) .nil
  case array =>
    intro i m v c ih p
    rw [he.edit_array, Ty.kindEvents_array, Ty.kindEvents_array]
    exact .cons p (.array m v) (ih _)
  case cls =>
    intro c ih p
    rw [he.edit_cls, Ty.kindEvents_cls, Ty.kindEvents_cls, he.mods_rebuild, he.name_rebuild]
    exact .cons p (.cls c.mods c.name) (ih p)
  case lambda =>
    intro suspend receiver c ih p
    rw [he.edit_lambda, Ty.kindEvents_lambda, Ty.kindEvents_lambda, he.mods_rebuild,
      he.name_rebuild]
    exact .cons p (.cls c.mods c.name) (.cons p (.lambda c.mods c.name) (ih p))
  case var =>
    intro v p
    rw [Editor.edit]
    exact s.expands_editVar p v
  case wildcard =>
    intro i m u l hu hl p
    rw [he.edit_wildcard, Ty.kindEvents_wildcard, Ty.kindEvents_wildcard]
    refine .cons p (.wildcard m) (.append ?_ ?_)
    · exact .bound fun t ht => hu t ht _
    · exact .bound fun t ht => hl t ht _
  case mk =>
    intro i m n o as ho has p
    rw [he.rebuild, ClassTy.partKindEvents_mk, ClassTy.partKindEvents_mk]
    refine .append ?_ (.editArgs has 1)
    cases o with
    | none => exact .nil
    | some c =>
      rw [Option.map_some, Option.elim_some, Option.elim_some, Ty.kindEvents_cls, Ty.kindEvents_cls,
        he.mods_rebuild, he.name_rebuild]
      exact .cons p (.cls c.mods c.name) (ho c rfl _)

/-- Without bindings every step stays as it is. -/
theorem expands_of_isEmpty {s : Bindings} (hs : s.isEmpty = true) (es : List Ty.Event) :
    s.Expands es es := by
  have hexpand : ∀ e, s.expand {} e = [e] := by
    intro e
    cases e with
    | var m x => rw [expand, Std.TreeMap.getElem?_of_isEmpty hs]
    | _ => rfl
  induction es with
  | nil => exact .nil
  | cons e es ih =>
    have hcons := Expands.cons {} e ih
    rwa [hexpand] at hcons

end Bindings

/-- By their kinds, a walk meets in a substituted tree what it meets in the tree, and in the place
of every bound variable all that it meets in the replacement. Of a replacement for a nullable use of
the variable it is the replacement marked nullable, a new instance made at some place. -/
theorem Ty.kindEvents_substitute (p : Ident) (s : Bindings) (t : Ty) :
    ∃ place : Nat → Ident, (t.substitute p s).kindEvents =
      (t.kindEvents.mapIdx fun k e => s.expand (place k) e).flatten := by
  rw [Ty.substitute]
  split_ifs with hempty
  · exact (Bindings.expands_of_isEmpty hempty t.kindEvents).exists_place
  · exact (s.expands_edit.1 t p).exists_place

end ApiSurface
