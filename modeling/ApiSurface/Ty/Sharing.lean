import ApiSurface.Ty.Equality

/-!
Which instances two trees share, position by position.
-/

namespace ApiSurface

/-- How a node of one tree relates to the node of the other at the same place. -/
inductive Mark where
  /-- The same instance; nothing below it is compared. -/
  | same
  /-- Another instance of the same kind with the same modifiers instance. -/
  | other
  /-- Another instance of the same kind with another modifiers instance. -/
  | otherModifiers
  /-- Children that are not the same in number. -/
  | uneven
  /-- A node of another kind; nothing below it is compared. -/
  | otherKind
deriving DecidableEq, Repr

namespace Mark

def name : Mark → String
  | same => "="
  | other => "*"
  | otherModifiers => "*m"
  | uneven => "#"
  | otherKind => "!"

/-- The mark for two instances of one kind that differ. -/
def ofModifiers (m m' : TypeModifiers) : Mark :=
  if m = m' then other else otherModifiers

end Mark

mutual

/-- The marks of two trees, a node before its children. -/
def Ty.sharing : Ty → Ty → List Mark
  | .primitive i m k, t' =>
    if .primitive i m k = t' then [.same]
    else match t' with
      | .primitive _ m' _ => [.ofModifiers m m']
      | _ => [.otherKind]
  | .array i m v c, t' =>
    if .array i m v c = t' then [.same]
    else match t' with
      | .array _ m' _ c' => .ofModifiers m m' :: c.sharing c'
      | _ => [.otherKind]
  | .cls c, t' =>
    if .cls c = t' then [.same]
    else match t' with
      | .cls c' => .ofModifiers c.mods c'.mods :: c.partSharing c'
      | _ => [.otherKind]
  | .lambda s r c, t' =>
    if .lambda s r c = t' then [.same]
    else match t' with
      | .lambda _ _ c' => .ofModifiers c.mods c'.mods :: c.partSharing c'
      | _ => [.otherKind]
  | .var v, t' =>
    if .var v = t' then [.same]
    else match t' with
      | .var v' => [.ofModifiers v.mods v'.mods]
      | _ => [.otherKind]
  | .wildcard i m u l, t' =>
    if .wildcard i m u l = t' then [.same]
    else match t' with
      | .wildcard _ m' u' l' =>
        .ofModifiers m m' :: (Ty.sharingOption u u' ++ Ty.sharingOption l l')
      | _ => [.otherKind]

def Ty.sharingOption : Option Ty → Option Ty → List Mark
  | none, none => []
  | some t, some t' => t.sharing t'
  | _, _ => [.uneven]

def Ty.sharingList : List Ty → List Ty → List Mark
  | t :: ts, t' :: ts' => t.sharing t' ++ Ty.sharingList ts ts'
  | _, _ => []

def ClassTy.partSharing : ClassTy → ClassTy → List Mark
  | ⟨_, _, _, o, as⟩, c' =>
    ClassTy.outerSharing o c'.outer ++
      if as.length = c'.args.length then Ty.sharingList as c'.args else [.uneven]

def ClassTy.outerSharing : Option ClassTy → Option ClassTy → List Mark
  | none, none => []
  | some c, some c' =>
    if c = c' then [.same] else .ofModifiers c.mods c'.mods :: c.partSharing c'
  | _, _ => [.uneven]

end

end ApiSurface
