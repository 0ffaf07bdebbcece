import StagedBuilder.Java.Syntax

namespace StagedBuilder.Java

def TypeRef.uses : TypeRef → List String
  | .reference text => [text]
  | .expr type => type.bases
  | .written _ => []
  | .collector builder elements next => builder :: elements.flatMap (·.bases) ++ next.uses

def Receiver.uses : Receiver → List String
  | .implicit => []
  | .value _ => []
  | .static reference => [reference]

def Callee.uses : Callee → List String
  | .constructor type => type.uses
  | .inferred reference => [reference]
  | .method receiver _ => receiver.uses

mutual

def Expr.uses : Expr → List String
  | .this => []
  | .null => []
  | .truth _ => []
  | .name _ => []
  | .quoted _ => []
  | .field owner _ => owner.uses
  | .call callee args => Expr.usesAll args ++ callee.uses
  | .ifNull subject whenNull otherwise => subject.uses ++ whenNull.uses ++ otherwise.uses
  | .supplier value => value.uses
  | .cast _ value => value.uses
  | .binary _ left right => left.uses ++ right.uses

def Expr.usesAll : List Expr → List String
  | [] => []
  | e :: es => e.uses ++ Expr.usesAll es

end

def Step.uses : Step → List String
  | .comment _ => []
  | .nullChecks checker _ => [checker]
  | .assign owner _ value => owner.uses ++ value.uses
  | .declare type _ value => type.uses ++ value.uses
  | .eval value => value.uses
  | .ret value => value.uses
  | .retCall callee args => Expr.usesAll args ++ callee.uses
  | .retAll conditions => Expr.usesAll conditions

namespace Reflection

def constructor : String := "java.lang.reflect.Constructor"

def failures : List String := [
  "java.lang.reflect.InvocationTargetException", "java.lang.NoSuchMethodException",
  "java.lang.InstantiationException", "java.lang.IllegalAccessException"]

def unchecked : String := "java.lang.RuntimeException"

end Reflection

def Stmt.uses : Stmt → List String
  | .step s => s.uses
  | .when condition body => condition.uses ++ body.flatMap (·.uses)
  | .reflective target erased args =>
    Expr.usesAll args ++ Reflection.constructor :: Reflection.failures ++
      Reflection.unchecked :: target :: erased.flatMap (·.uses)

def Formal.uses (f : Formal) : List String := f.type.uses ++ f.marker.toList

def Method.uses (m : Method) : List String :=
  m.markers ++ (m.result.map (·.uses)).getD [] ++ m.formals.flatMap (·.uses) ++
    m.body.flatMap (·.uses)

def Field.uses (f : Field) : List String := f.type.uses ++ (f.value.map (·.uses)).getD []

def NestedClass.uses (c : NestedClass) : List String :=
  c.fields.flatMap (·.uses) ++ c.methods.flatMap (·.uses)

def Member.uses : Member → List String
  | .method m => m.uses
  | .nested c => c.uses

def SourceUnit.uses (u : SourceUnit) : List String :=
  u.marker :: u.interface.toList ++ u.favoured.toList ++
    (u.fields.getD []).flatMap (·.uses) ++ u.members.flatMap (·.uses)

end StagedBuilder.Java
