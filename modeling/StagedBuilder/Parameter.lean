import StagedBuilder.Manifest.Basic
import StagedBuilder.Vocabulary

namespace StagedBuilder

open Text

inductive DeclaredType
  | parsed (type : TypeExpr)
  | verbatim (text : String)
  deriving DecidableEq, Repr

namespace DeclaredType

def render : DeclaredType → String
  | .parsed type => type.render
  | .verbatim text => text

def isPrimitive : DeclaredType → Bool
  | .parsed type => type.isLeaf && StagedBuilder.isPrimitive type.base
  | .verbatim text => StagedBuilder.isPrimitive text

def wrapped? : DeclaredType → Option TypeExpr
  | .parsed type => if type.isOptional then type.args.head? else none
  | .verbatim _ => none

def collection? : DeclaredType → Option Collection
  | .parsed type => type.collection?
  | .verbatim _ => none

def isViewed : DeclaredType → Bool
  | .parsed type => type.isViewed
  | .verbatim _ => false

end DeclaredType

inductive Absence
  | required
  | nullable
  | wrapped
  deriving DecidableEq, Repr

namespace Absence

def name : Absence → String
  | .required => "required"
  | .nullable => "nullable"
  | .wrapped => "wrapped"

end Absence

structure Parameter where
  name : String
  type : DeclaredType
  acceptsNull : Bool := false
  doc : Option String := none
  accessor : Option String := none
  deriving DecidableEq, Repr

namespace Parameter

def ofDecl (d : ParameterDecl) : Except MalformedType Parameter := do
  let type ←
    if d.verbatim then pure (.verbatim (.ofList (trim d.type.toList)))
    else DeclaredType.parsed <$> TypeExpr.qualify <$> TypeExpr.parse d.type
  return ⟨d.name, type, d.nullable, d.doc, d.accessor⟩

def wrapped? (p : Parameter) : Option TypeExpr := p.type.wrapped?

def absence (p : Parameter) : Absence :=
  if p.wrapped?.isSome then .wrapped else if p.acceptsNull then .nullable else .required

def isMandatory (p : Parameter) : Bool := p.absence = .required

def isWrapped (p : Parameter) : Bool := p.absence = .wrapped

def isNullable (p : Parameter) : Bool := p.absence = .nullable

def isPrimitive (p : Parameter) : Bool := p.type.isPrimitive

def isVerbatim (p : Parameter) : Bool :=
  match p.type with
  | .parsed _ => false
  | .verbatim _ => true

def reader (p : Parameter) : String := p.accessor.getD p.name

def needsNullCheck (p : Parameter) : Bool := !p.isPrimitive && !p.isNullable

def reservedNames : List String := ["_b", "_c", "_o"]

end Parameter

end StagedBuilder
