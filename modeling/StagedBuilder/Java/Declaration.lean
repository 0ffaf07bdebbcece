import StagedBuilder.Java.Syntax
import StagedBuilder.Parameter
import StagedBuilder.SupportClasses

namespace StagedBuilder.Parameter

open Java

def typeRef (p : Parameter) : TypeRef :=
  match p.type with
  | .parsed type => .expr type
  | .verbatim text => .written text

def nullMarker (s : SupportClasses) (p : Parameter) : Option String :=
  if p.isPrimitive then none else some (if p.isNullable then s.nullable else s.nonnull)

def formal (s : SupportClasses) (p : Parameter) : Formal := ⟨p.nullMarker s, p.typeRef, p.name⟩

def nullCheck (s : SupportClasses) (p : Parameter) : List Stmt :=
  if p.needsNullCheck then [.step (.nullChecks s.preconditions [p.name])] else []

end StagedBuilder.Parameter
