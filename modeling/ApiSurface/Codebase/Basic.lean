import ApiSurface.Annotations.VerdictCache
import ApiSurface.Codebase.Builder
import ApiSurface.Options

/-!
A codebase: its tables together with what it was made with.
-/

namespace ApiSurface

/-- What a codebase is made with. -/
structure Settings where
  description : String := ""
  fromClasspath : Bool := false
  options : Options ValueKind.Value := .empty
  classifier : Classifier := .noEffect

/-- A finished codebase. The number tells it apart from other codebases. -/
structure Codebase where
  number : Nat
  settings : Settings
  tables : Tables

namespace Codebase

variable (cb : Codebase)

/-- Builds a codebase by a list of calls. -/
def build (number : Nat) (settings : Settings) (calls : List Call) : Codebase :=
  ⟨number, settings, Tables.run {} calls⟩

/-- The origin of what does not say where it comes from. -/
def defaultOrigin : Origin :=
  if cb.settings.fromClasspath then .classPath else .commandLine

/-- The packages in the order of their names. -/
def packages : List PackageId := cb.tables.packageIndex.toList.map (·.2)

/-- The classes in the order of their declaration. -/
def classes : List ClassId := List.range cb.tables.classes.size

def findPackage? (name : String) : Option PackageId := cb.tables.packageIndex[name]?

def findClass? (name : String) : Option ClassId := cb.tables.classIndex[name]?

def findAlias? (name : String) : Option AliasId := cb.tables.aliasIndex[name]?

/-- The annotations of the class of this name. -/
def metaAnnotations (name : String) : List AnnotationUse :=
  match cb.findClass? name with
  | some c => (cb.tables.classAt c).decl.modifiers.annotations
  | none => []

/-- The verdicts on an annotation, which are looked up in the cache of the codebase. -/
def verdict (a : AnnotationUse) : StateM VerdictCache Verdict := do
  return (← VerdictCache.lookup cb.settings.classifier cb.metaAnnotations a).info

end Codebase

end ApiSurface
