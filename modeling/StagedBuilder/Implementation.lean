import StagedBuilder.Java.Declaration
import StagedBuilder.Java.Layout
import StagedBuilder.GenerationError

namespace StagedBuilder

open Java

structure Implementation where
  interface : String
  name : String
  params : List Parameter
  check : Option String := none
  deriving DecidableEq, Repr

namespace Implementation

def simpleName (i : Implementation) : String := ClassName.simple i.name

def formals (i : Implementation) : List Formal :=
  i.params.map fun p => { type := p.typeRef, name := p.name }

def constructor (s : SupportClasses) (i : Implementation) : Method where
  isPublic := false
  result := none
  name := i.simpleName
  formals := i.formals
  flowing := true
  body :=
    .step (.nullChecks s.preconditions ((i.params.filter (·.needsNullCheck)).map (·.name))) ::
    i.params.map (fun p => .step (.assign .this p.name (.name p.name))) ++
    (i.check.map fun c => .step (.eval (.call (.method .implicit c) []))).toList

def factory (i : Implementation) : Method where
  isStatic := true
  result := some (.written i.simpleName)
  name := "create"
  formals := i.formals
  flowing := true
  body :=
    let args := Expr.names (i.params.map (·.name))
    [.step (.retCall (.constructor (.written i.simpleName)) args)]

def overrideMarker : String := "java.lang.Override"

def accessor (s : SupportClasses) (p : Parameter) : Method where
  markers := overrideMarker :: (p.nullMarker s).toList
  result := some p.typeRef
  name := p.name
  body := [.step (.ret (.name p.name))]

def append (value : Expr) : Stmt := .step (.eval (.call (.method (.value "b") "append") [value]))

def stringClass : String := "java.lang.String"

def textParts (lead : String) : List Parameter → List Stmt
  | [] => []
  | p :: ps =>
    append (.quoted (lead ++ p.name ++ "=")) ::
    append (.call (.method (.static stringClass) "valueOf") [.field .this p.name]) ::
    textParts ", " ps

def toStringMethod (i : Implementation) : Method where
  markers := [overrideMarker]
  result := some (.reference stringClass)
  name := "toString"
  body :=
    let text := TypeRef.reference "java.lang.StringBuilder"
    .step (.declare text "b" (.call (.constructor text) [])) ::
    append (.quoted (i.simpleName ++ "[")) :: textParts "" i.params ++
    [append (.quoted "]"), .step (.ret (.call (.method (.value "b") "toString") []))]

def objectsClass : String := "java.util.Objects"

def sameValue (p : Parameter) : Expr :=
  .call (.method (.static objectsClass) "equals")
    [.field .this p.name, .field (.name "other") p.name]

def equalsMethod (i : Implementation) : Method where
  markers := [overrideMarker]
  result := some (.written "boolean")
  name := "equals"
  formals := [{ type := .reference "java.lang.Object", name := "o" }]
  body :=
    let classOf (receiver : Receiver) := Expr.call (.method receiver "getClass") []
    let o := Expr.name "o"
    .when (.binary "==" .this o) [.ret (.truth true)] ::
    .when (.binary "||" (.binary "==" o .null)
      (.binary "!=" (classOf .implicit) (classOf (.value "o")))) [.ret (.truth false)] ::
    match i.params with
    | [] => [.step (.ret (.truth true))]
    | params =>
      [.step (.declare (.written i.simpleName) "other" (.cast i.simpleName o)),
        .step (.retAll (params.map sameValue))]

def hashCodeMethod (i : Implementation) : Method where
  markers := [overrideMarker]
  result := some (.written "int")
  name := "hashCode"
  body := [.step (.ret
    (.call (.method (.static objectsClass) "hash") (Expr.names (i.params.map (·.name)))))]

def unit (s : SupportClasses) (i : Implementation) : SourceUnit where
  package := ClassName.package i.name
  name := i.simpleName
  marker := s.generated
  origin := s.generator
  interface := some i.interface
  fields := some (i.params.map fun p => { isFinal := true, type := p.typeRef, name := p.name })
  members :=
    (i.constructor s :: i.factory :: i.params.map (accessor s) ++
      [i.toStringMethod, i.equalsMethod, i.hashCodeMethod]).map .method

def source (s : SupportClasses) (i : Implementation) : Except GenerationError String := do
  Parameter.checkAll i.params
  return (i.unit s).text (.ofOwner i.name)

end Implementation

end StagedBuilder
