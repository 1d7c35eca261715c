import ApiSurface.Ty.Equality

/-!
What a walk over a type tree meets: every node before its parts, outer class types before arguments
and upper bounds before lower ones.
-/

namespace ApiSurface

/-- One step of a walk. Every node is met as a type and then by its kind; a lambda is met as a class
first. -/
inductive Ty.Event where
  | type (t : Ty)
  | primitive (mods : TypeModifiers) (kind : Primitive)
  | array (mods : TypeModifiers) (varargs : Bool)
  | cls (mods : TypeModifiers) (name : String)
  | lambda (mods : TypeModifiers) (name : String)
  | var (mods : TypeModifiers) (name : String)
  | wildcard (mods : TypeModifiers)
deriving DecidableEq

mutual

/-- The steps of a walk over a type. -/
def Ty.events : Ty → List Ty.Event
  | .primitive i m k => [.type (.primitive i m k), .primitive m k]
  | .array i m v c => .type (.array i m v c) :: .array m v :: c.events
  | .cls c => .type (.cls c) :: .cls c.mods c.name :: c.partEvents
  | .lambda s r c =>
    .type (.lambda s r c) :: .cls c.mods c.name :: .lambda c.mods c.name :: c.partEvents
  | .var v => [.type (.var v), .var v.mods v.name]
  | .wildcard i m u l =>
    .type (.wildcard i m u l) :: .wildcard m :: (Ty.eventsOption u ++ Ty.eventsOption l)

def Ty.eventsOption : Option Ty → List Ty.Event
  | none => []
  | some t => t.events

def Ty.eventsList : List Ty → List Ty.Event
  | [] => []
  | t :: ts => t.events ++ Ty.eventsList ts

/-- The steps of a walk over the parts of a class type. -/
def ClassTy.partEvents : ClassTy → List Ty.Event
  | ⟨_, _, _, o, as⟩ => ClassTy.outerEvents o ++ Ty.eventsList as

def ClassTy.outerEvents : Option ClassTy → List Ty.Event
  | none => []
  | some c => .type (.cls c) :: .cls c.mods c.name :: c.partEvents

end

theorem Ty.eventsList_eq (ts : List Ty) : Ty.eventsList ts = ts.flatMap Ty.events := by
  induction ts with
  | nil => rfl
  | cons t ts ih => rw [Ty.eventsList, ih, List.flatMap_cons]

end ApiSurface
