import StagedBuilder.Builder.Basic
import StagedBuilder.Java.Declaration
import StagedBuilder.Text.Search

namespace StagedBuilder.Builder

open Java Text

inductive Notice
  | mandatory
  | nullable
  | optionalValue
  | optionalWrapper
  deriving DecidableEq

namespace Notice

def ofParameter (p : Parameter) : Notice :=
  match p.absence with
  | .required => .mandatory
  | .nullable => .nullable
  | .wrapped => .optionalWrapper

def text : Notice → String
  | .mandatory => "This parameter is <b>MANDATORY</b>."
  | .nullable =>
    "This parameter is <b>NULLABLE</b>, the call can be omitted or this method can be called " ++
      "with \x7b@code null\x7d."
  | .optionalValue =>
    "This parameter is <b>OPTIONAL</b>, the call can be omitted or an overload can be called " ++
      "with \x7b@code Optional.empty()\x7d."
  | .optionalWrapper =>
    "This parameter is <b>OPTIONAL</b>, the call can be omitted or this method can be called " ++
      "with \x7b@code Optional.empty()\x7d."

end Notice

/-- The end of a comment must not occur inside it. -/
def guardComment (doc : String) : String :=
  .ofList (replace "*/".toList "*&#47;".toList (trim doc.toList))

def setterDoc (p : Parameter) (notice : Notice) (returns : String) : Doc where
  text :=
    "Sets \x7b@code " ++ p.name ++ "\x7d." ++
      ((p.doc.map fun d => " " ++ guardComment d).getD "") ++ " " ++ notice.text
  param := p.name
  returns := returns

structure Continuation where
  type : TypeRef
  value : Expr
  description : String

structure Site where
  owner : Expr
  next : Continuation

def setter (s : SupportClasses) (p : Parameter) (notice : Notice) (site : Site) : Method where
  doc := setterDoc p notice site.next.description
  result := site.next.type
  name := p.name
  formals := [p.formal s]
  body := p.nullCheck s ++ [
    .step (.assign site.owner p.name (.name p.name)),
    .step (.ret site.next.value)]

def unboxed (inner : TypeExpr) : TypeRef × Bool :=
  if inner.isLeaf && isPrimitive (unbox inner.base) then (.written (unbox inner.base), true)
  else (.expr inner, false)

def innerSetter (s : SupportClasses) (p : Parameter) (wrapper : String) (inner : TypeExpr)
    (site : Site) : Method :=
  let (innerType, primitive) := unboxed inner
  { doc := setterDoc p .optionalValue site.next.description
    result := site.next.type
    name := p.name
    formals := [⟨if primitive then none else some s.nonnull, innerType, p.name⟩]
    body :=
      (if primitive then [] else [.step (.nullChecks s.preconditions [p.name])]) ++ [
        .step (.assign site.owner p.name (.call (.method (.static wrapper) "of") [.name p.name])),
        .step (.ret site.next.value)] }

def valueSetter (s : SupportClasses) (p : Parameter) (site : Site) : List Method :=
  match p.type, p.wrapped? with
  | .parsed type, some inner => [innerSetter s p type.base inner site]
  | _, _ => []

def collectionBuilder (s : SupportClasses) : CollectionKind → String
  | .list => s.listBuilder
  | .set => s.setBuilder
  | .map => s.mapBuilder

/--
Returns a builder of the collection that the parameter is. It works on a fresh copy, so that a
collection that was passed in is not changed.
-/
def accessor (s : SupportClasses) (p : Parameter) (c : Collection) (elements : List TypeExpr)
    (site : Site) : Method :=
  let builder := collectionBuilder s c.kind
  let held := .field site.owner p.name
  let fresh (args : List Expr) := Expr.call (.inferred c.implementation) args
  { result := some (.collector builder elements site.next.type)
    name := p.name
    body := [
      .step (.assign site.owner p.name (.ifNull held (fresh []) (fresh [held]))),
      .step (.ret (.call (.inferred builder) [.supplier site.next.value, held]))] }

def collector (s : SupportClasses) (p : Parameter) (site : Site) : List Method :=
  match p.type, p.type.collection? with
  | .parsed type, some c => [accessor s p c type.args site]
  | _, _ => []

def mandatorySetters (s : SupportClasses) (p : Parameter) (site : Site) : List Method :=
  collector s p site ++ [setter s p .mandatory site]

def fluentSetters (s : SupportClasses) (p : Parameter) (site : Site) : List Method :=
  valueSetter s p site ++ collector s p site ++ [setter s p (.ofParameter p) site]

end StagedBuilder.Builder
