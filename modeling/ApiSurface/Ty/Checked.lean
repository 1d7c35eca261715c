import ApiSurface.Error
import ApiSurface.Ty.Render

/-!
Lambdas and wildcards that are checked when they are made, and the parts of a lambda.
-/

namespace ApiSurface.Ty

/-- How many type arguments a lambda needs: a result, and a receiver if it has one. -/
def neededArgs (receiver : Bool) : Nat := if receiver then 2 else 1

/-- A lambda with enough arguments for its parts. -/
def newLambda (suspend receiver : Bool) (c : ClassTy) : Except Error Ty :=
  let needed := neededArgs receiver
  if c.args.length < needed then
    .error (.invalidType s!"lambda type {c.name} needs at least {needed} type arguments")
  else .ok (.lambda suspend receiver c)

/-- A wildcard with one bound, or with a lower bound and the root class as upper bound. -/
def newWildcard (id : Ident) (mods : TypeModifiers) (upper lower : Option Ty) :
    Except Error Ty :=
  match upper, lower with
  | some u, some _ =>
    if u.isObject then .ok (.wildcard id mods upper lower)
    else
      let bound := u.text
      .error (.invalidType
        s!"wildcard cannot have both an extends bound ({bound}) and a super bound")
  | _, _ => .ok (.wildcard id mods upper lower)

/-- The receiver among the arguments of a lambda. -/
def receiver? (receiver : Bool) (args : List Ty) : Option Ty :=
  if receiver then args.head? else none

/-- Where the parameters start among `n` arguments: behind the receiver, if there is room for it. -/
def parametersStart (receiver : Bool) (n : Nat) : Nat := min receiver.toNat n

/-- Where the parameters stop among `n` arguments: before the last, but not before they start. -/
def parametersStop (receiver : Bool) (n : Nat) : Nat := max (n - 1) (parametersStart receiver n)

/-- The parameters among the arguments of a lambda: all but the receiver and the last. -/
def parameters (receiver : Bool) (args : List Ty) : List Ty :=
  args.extract (parametersStart receiver args.length) (parametersStop receiver args.length)

/-- The result among the arguments of a lambda. -/
def result? (args : List Ty) : Option Ty := args.getLast?

end ApiSurface.Ty
