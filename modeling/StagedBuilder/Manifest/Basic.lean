import StagedBuilder.ClassName
import StagedBuilder.NameTemplate

namespace StagedBuilder

inductive TypeKind
  | plainClass
  | record
  | interface
  deriving DecidableEq, Repr

namespace TypeKind

def name : TypeKind → String
  | .plainClass => "class"
  | .record => "record"
  | .interface => "interface"

def all : List TypeKind := [.plainClass, .record, .interface]

end TypeKind

inductive Visibility
  | publicAccess
  | protectedAccess
  | packageAccess
  | privateAccess
  deriving DecidableEq, Repr

namespace Visibility

def name : Visibility → String
  | .publicAccess => "public"
  | .protectedAccess => "protected"
  | .packageAccess => "package"
  | .privateAccess => "private"

def all : List Visibility := [.publicAccess, .protectedAccess, .packageAccess, .privateAccess]

end Visibility

structure ParameterDecl where
  name : String
  type : String
  nullable : Bool := false
  doc : Option String := none
  /-- The type is written as it stands and its class is not imported. -/
  verbatim : Bool := false
  accessor : Option String := none
  deriving DecidableEq, Repr

structure ConstructorDecl where
  visibility : Visibility := .publicAccess
  designated : Bool := false
  params : List ParameterDecl := []
  deriving DecidableEq, Repr

structure TypeDecl where
  kind : TypeKind := .plainClass
  visibility : Visibility := .publicAccess
  package : Option String := none
  builder : Option String := none
  implementation : Option String := none
  alwaysBuild : Option Bool := none
  copy : Option Bool := none
  check : Option String := none
  params : List ParameterDecl := []
  constructors : List ConstructorDecl := []
  deriving DecidableEq, Repr

namespace TypeDecl

def packageOf (d : TypeDecl) (name : String) : String := d.package.getD (ClassName.package name)

end TypeDecl

structure Defaults where
  builder : String := NameTemplate.builder.text
  implementation : String := NameTemplate.implementation.text
  alwaysBuild : Bool := false
  copy : Bool := true
  deriving DecidableEq, Repr

structure SupportOverrides where
  preconditions : Option String := none
  helpers : Option String := none
  listBuilder : Option String := none
  setBuilder : Option String := none
  mapBuilder : Option String := none
  generated : Option String := none
  nonnull : Option String := none
  nullable : Option String := none
  generator : Option String := none
  deriving DecidableEq, Repr

structure Manifest where
  defaults : Defaults := {}
  support : SupportOverrides := {}
  types : List (String × TypeDecl) := []
  deriving DecidableEq, Repr

end StagedBuilder
