import StagedBuilder.TypeExpr

/-!
The part of Java that generated files are written in. Classes of other files are named by
references, which a file's imports resolve to names; `written` text stands as it is.
-/

namespace StagedBuilder.Java

inductive TypeRef
  | reference (text : String)
  | expr (type : TypeExpr)
  | written (text : String)
  | collector (builder : String) (elements : List TypeExpr) (next : TypeRef)
  deriving DecidableEq, Repr

inductive Receiver
  | implicit
  | value (name : String)
  | static (reference : String)
  deriving DecidableEq, Repr

inductive Callee
  | constructor (type : TypeRef)
  | inferred (reference : String)
  | method (receiver : Receiver) (name : String)
  deriving DecidableEq, Repr

inductive Expr
  | this
  | null
  | truth (value : Bool)
  | name (text : String)
  | quoted (text : String)
  | field (owner : Expr) (name : String)
  | call (callee : Callee) (args : List Expr)
  | ifNull (subject whenNull otherwise : Expr)
  | supplier (value : Expr)
  | cast (type : String) (value : Expr)
  | binary (operator : String) (left right : Expr)
  deriving Inhabited, Repr

inductive Step
  | comment (text : String)
  | nullChecks (checker : String) (names : List String)
  | assign (owner : Expr) (field : String) (value : Expr)
  | declare (type : TypeRef) (name : String) (value : Expr)
  | eval (value : Expr)
  | ret (value : Expr)
  | retCall (callee : Callee) (args : List Expr)
  | retAll (conditions : List Expr)
  deriving Repr

inductive Stmt
  | step (step : Step)
  | when (condition : Expr) (body : List Step)
  | reflective (target : String) (erased : List TypeRef) (args : List Expr)
  deriving Repr

structure Formal where
  marker : Option String := none
  type : TypeRef
  name : String
  deriving DecidableEq, Repr

structure Doc where
  text : String
  param : String
  returns : String
  deriving DecidableEq, Repr

structure Method where
  doc : Option Doc := none
  markers : List String := []
  isPublic : Bool := true
  isStatic : Bool := false
  result : Option TypeRef
  name : String
  formals : List Formal := []
  flowing : Bool := false
  body : List Stmt
  deriving Repr

structure Field where
  isFinal : Bool := false
  type : TypeRef
  name : String
  value : Option Expr := none
  deriving Repr

structure NestedClass where
  name : String
  fields : List Field
  methods : List Method
  deriving Repr

inductive Member
  | method (method : Method)
  | nested (nested : NestedClass)
  deriving Repr

structure SourceUnit where
  package : String
  name : String
  marker : String
  origin : String
  interface : Option String := none
  favoured : Option String := none
  fields : Option (List Field) := none
  members : List Member
  deriving Repr

namespace Expr

def names (xs : List String) : List Expr := xs.map .name

end Expr

namespace SourceUnit

def nestedClasses (u : SourceUnit) : List NestedClass :=
  u.members.filterMap fun
    | .method _ => none
    | .nested c => some c

def methods (u : SourceUnit) : List Method :=
  u.members.filterMap fun
    | .method m => some m
    | .nested _ => none

def declared (u : SourceUnit) : List String := u.name :: u.nestedClasses.map (·.name)

end SourceUnit

end StagedBuilder.Java
