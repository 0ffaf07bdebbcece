import StagedBuilder.Java.Syntax

namespace StagedBuilder.Java

namespace TypeRef

def reached : TypeRef → TypeRef
  | .collector _ _ next => next.reached
  | t => t

def isCollector : TypeRef → Bool
  | .collector _ _ _ => true
  | _ => false

def plain : TypeRef → List String
  | .reference _ => []
  | .expr _ => []
  | .written text => [text]
  | .collector _ _ next => next.plain

end TypeRef

def Callee.plain : Callee → List String
  | .constructor type => type.plain
  | .inferred _ => []
  | .method _ _ => []

mutual

def Expr.plain : Expr → List String
  | .this => []
  | .null => []
  | .truth _ => []
  | .name _ => []
  | .quoted _ => []
  | .field owner _ => owner.plain
  | .call callee args => callee.plain ++ Expr.plainAll args
  | .ifNull subject whenNull otherwise => subject.plain ++ whenNull.plain ++ otherwise.plain
  | .supplier value => value.plain
  | .cast type value => type :: value.plain
  | .binary _ left right => left.plain ++ right.plain

def Expr.plainAll : List Expr → List String
  | [] => []
  | e :: es => e.plain ++ Expr.plainAll es

end

def Step.plain : Step → List String
  | .comment _ => []
  | .nullChecks _ _ => []
  | .assign owner _ value => owner.plain ++ value.plain
  | .declare type _ value => type.plain ++ value.plain
  | .eval value => value.plain
  | .ret value => value.plain
  | .retCall callee args => callee.plain ++ Expr.plainAll args
  | .retAll conditions => Expr.plainAll conditions

def Stmt.plain : Stmt → List String
  | .step s => s.plain
  | .when condition body => condition.plain ++ body.flatMap (·.plain)
  | .reflective _ erased args => erased.flatMap (·.plain) ++ Expr.plainAll args

def Method.plain (m : Method) : List String :=
  (m.result.map (·.plain)).getD [] ++ m.formals.flatMap (·.type.plain) ++
    m.body.flatMap (·.plain)

def Field.plain (f : Field) : List String :=
  f.type.plain ++ (f.value.map (·.plain)).getD []

def NestedClass.plain (c : NestedClass) : List String :=
  c.fields.flatMap (·.plain) ++ c.methods.flatMap (·.plain)

structure Move where
  name : String
  formals : List TypeRef
  viaCollector : Bool
  next : TypeRef
  deriving DecidableEq

def Method.move? (m : Method) : Option Move :=
  if m.isPublic && !m.isStatic then
    m.result.map fun t => ⟨m.name, m.formals.map (·.type), t.isCollector, t.reached⟩
  else none

def moves (methods : List Method) : List Move := methods.filterMap (·.move?)

def constructors (methods : List Method) : List (String × Bool) :=
  (methods.filter (·.result.isNone)).map fun m => (m.name, m.isPublic)

def entries (methods : List Method) : List (String × TypeRef) :=
  methods.filterMap fun m =>
    if m.isPublic && m.isStatic then m.result.map fun t => (m.name, t) else none

namespace SourceUnit

def plain (u : SourceUnit) : List String :=
  (u.fields.getD []).flatMap (·.plain) ++ u.methods.flatMap (·.plain) ++
    u.nestedClasses.flatMap (·.plain)

variable {u : SourceUnit} {names : List String} {goal : TypeRef}

end SourceUnit

end StagedBuilder.Java
