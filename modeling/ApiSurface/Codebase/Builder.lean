import ApiSurface.Codebase.Tables
import ApiSurface.Error

/-!
Building the tables of a codebase call by call. A call that fails changes nothing.
-/

namespace ApiSurface

/-- What gets another type. -/
inductive TypeSlot where
  | member (m : MemberId)
  | parameter (m : MemberId) (index : Nat)
  | typeAlias (a : AliasId)
deriving DecidableEq, Repr

/-- The calls that build tables. -/
inductive Call where
  | addPackage (decl : PackageDecl)
  | addClass (package : PackageId) (container : Option ClassId) (decl : ClassDecl)
  | addMember (c : ClassId) (decl : MemberDecl)
  | addAlias (package : PackageId) (decl : AliasDecl)
  | setType (target : TypeSlot) (ty : Ty)
deriving DecidableEq

/-- What a call that succeeds answers. -/
inductive Answer where
  | id (n : Nat)
  | done
deriving DecidableEq, Repr

namespace Tables

variable (t : Tables)

/-- The tables with one more package. -/
def putPackage (decl : PackageDecl) : Tables :=
  { t with
    packages := t.packages.push { decl }
    packageIndex := t.packageIndex.insert decl.name t.packages.size }

/-- A package of a name that is known already is that package. -/
def addPackage (decl : PackageDecl) : PackageId × Tables :=
  match t.packageIndex[decl.name]? with
  | some id => (id, t)
  | none => (t.packages.size, t.putPackage decl)

/-- Checks that a class may be nested in `container`. -/
def checkContainer (package : PackageId) (container : Option ClassId) (name : String) :
    Except Error Unit :=
  match container with
  | none => .ok ()
  | some outer =>
    match t.classes[outer]? with
    | none => .error (.unknownItem "class" outer)
    | some e =>
      let outerName := e.decl.name
      if e.package ≠ package then
        .error (.malformedContainment
          s!"nested class {name} is in a different package than {outerName}")
      else if !Text.isInside outerName name then
        .error (.malformedContainment s!"class {name} is not named inside {outerName}")
      else .ok ()

/-- Checks that a class of this name may be added. -/
def checkClass (package : PackageId) (container : Option ClassId) (name : String) :
    Except Error Unit :=
  match t.packages[package]? with
  | none => .error (.unknownItem "package" package)
  | some e =>
    let packageName := e.decl.name
    if t.classIndex.contains name then .error (.duplicateClass name)
    else if packageName ≠ "" && !Text.isInside packageName name then
      .error (.malformedContainment s!"class {name} is not inside package {packageName}")
    else t.checkContainer package container name

/-- Puts the next class into the list of its container or of its package. -/
def linkClass (package : PackageId) (container : Option ClassId) : Tables :=
  let id := t.classes.size
  match container with
  | some outer =>
    { t with classes := t.classes.modify outer fun e => { e with nested := e.nested ++ [id] } }
  | none =>
    { t with
      packages := t.packages.modify package fun e => { e with classes := e.classes ++ [id] } }

/-- The tables with one more class. -/
def putClass (package : PackageId) (container : Option ClassId) (decl : ClassDecl) : Tables :=
  let linked := t.linkClass package container
  { linked with
    classes := linked.classes.push { decl, package, container }
    classIndex := linked.classIndex.insert decl.name t.classes.size }

/-- Adds a class to a package, or to a class of that package. -/
def addClass (package : PackageId) (container : Option ClassId) (decl : ClassDecl) :
    Except Error (ClassId × Tables) := do
  t.checkClass package container decl.name
  return (t.classes.size, t.putClass package container decl)

/-- The type of a declared member. A constructor without one makes its class. -/
def declaredType (c : ClassId) (decl : MemberDecl) : Except Error Ty :=
  match decl.ty, decl.kind with
  | some ty, _ => .ok ty
  | none, .constructor => .ok (.cls (t.classTy ⟨0, [t.members.size]⟩ c))
  | none, kind =>
    let kindName := kind.name
    let className := (t.classAt c).decl.name
    let name := decl.name
    .error (.invalidType s!"{kindName} {className}.{name} has no type")

/-- The name of a declared member. A constructor without one is named for its class. -/
def declaredName (c : ClassId) (decl : MemberDecl) : String :=
  if decl.kind = .constructor ∧ decl.name = "" then Text.lastSegment (t.classAt c).decl.name
  else decl.name

/-- The tables with one more member. -/
def putMember (c : ClassId) (decl : MemberDecl) (ty : Ty) : Tables :=
  { t with
    classes := t.classes.modify c fun e => { e with members := e.members ++ [t.members.size] }
    members := t.members.push
      { kind := decl.kind
        name := t.declaredName c decl
        modifiers := decl.modifiers
        documentation := decl.documentation
        typeParameters := decl.typeParameters
        ty := ty
        parameters := decl.parameters
        declaredIn := c } }

/-- Adds a member to a class. -/
def addMember (c : ClassId) (decl : MemberDecl) : Except Error (MemberId × Tables) := do
  if t.classes.size ≤ c then throw (.unknownItem "class" c)
  let ty ← t.declaredType c decl
  return (t.members.size, t.putMember c decl ty)

/-- The tables with one more type alias. -/
def putAlias (package : PackageId) (decl : AliasDecl) : Tables :=
  { t with
    packages := t.packages.modify package fun e =>
      { e with aliases := e.aliases ++ [t.aliases.size] }
    aliases := t.aliases.push { decl, package }
    aliasIndex := t.aliasIndex.insert decl.name t.aliases.size }

/-- Adds a type alias to a package. -/
def addAlias (package : PackageId) (decl : AliasDecl) : Except Error (AliasId × Tables) :=
  if t.packages.size ≤ package then .error (.unknownItem "package" package)
  else if t.aliasIndex.contains decl.name then .error (.duplicateTypeAlias decl.name)
  else .ok (t.aliases.size, t.putAlias package decl)

/-- The number of 32-bit words. -/
def wordCount : Nat := 4294967296

/-- The tables with one member changed. -/
def changeMember (m : MemberId) (f : MemberEntry → MemberEntry) : Tables :=
  { t with members := t.members.modify m f }

/-- Gives a member or a parameter another type. The number of an unknown parameter is reported as a
32-bit word. -/
def setType (target : TypeSlot) (ty : Ty) : Except Error Tables :=
  match target with
  | .member m =>
    if t.members.size ≤ m then .error (.unknownItem "member" m)
    else .ok (t.changeMember m fun e => { e with ty })
  | .parameter m index =>
    match t.members[m]? with
    | none => .error (.unknownItem "member" m)
    | some e =>
      if e.parameters.length ≤ index then .error (.unknownItem "parameter" (index % wordCount))
      else .ok (t.changeMember m fun e =>
        { e with parameters := e.parameters.modify index fun p => { p with ty } })
  | .typeAlias a =>
    match t.aliases[a]? with
    | none => .error (.unknownItem "type alias" a)
    | some e => .error (.immutableTypeAliasType e.decl.name)

/-- One call. -/
def step : Call → Except Error (Answer × Tables)
  | .addPackage decl =>
    let (id, t') := t.addPackage decl
    .ok (.id id, t')
  | .addClass package container decl => do
    let (id, t') ← t.addClass package container decl
    return (.id id, t')
  | .addMember c decl => do
    let (id, t') ← t.addMember c decl
    return (.id id, t')
  | .addAlias package decl => do
    let (id, t') ← t.addAlias package decl
    return (.id id, t')
  | .setType target ty => do
    return (.done, ← t.setType target ty)

/-- The answer to a call and the tables after it. -/
def call (c : Call) : Except Error Answer × Tables :=
  match t.step c with
  | .ok (answer, t') => (.ok answer, t')
  | .error e => (.error e, t)

/-- The tables after a list of calls. -/
def run (t : Tables) : List Call → Tables
  | [] => t
  | c :: cs => run (t.call c).2 cs

/-- The answers to a list of calls. -/
def answers (t : Tables) : List Call → List (Except Error Answer)
  | [] => []
  | c :: cs => (t.call c).1 :: answers (t.call c).2 cs

end Tables

end ApiSurface
