import StagedBuilder.Java.Layout
import StagedBuilder.Vocabulary

/-!
What the generated code does: its objects live on a heap, and what it calls outside of its file
stays a term. Statements and expressions that builders do not contain have no meaning here.
-/

namespace StagedBuilder.Java

open Text

def elementText? (type : String) : Option String :=
  match (trim type.toList).reverse with
  | ']' :: cs =>
    match cs.dropWhile isBlank with
    | '[' :: cs => some (.ofList (trim cs.reverse))
    | _ => none
  | _ => none

def TypeRef.element? : TypeRef → Option String
  | .reference text => elementText? text
  | .expr type => if type.isLeaf then elementText? type.base else none
  | .written text => elementText? text
  | .collector _ _ _ => none

def TypeRef.isReferenceArray (t : TypeRef) : Bool := t.element?.any fun e => !isPrimitive e

def TypeRef.isCharArray (t : TypeRef) : Bool := t.element? = some "char"

inductive Operation
  | new (type : TypeRef)
  | inferred (reference : String)
  | lookup (target : String) (erased : List TypeRef)
  | newInstance (target : String) (erased : List TypeRef)
  /-- The call receives the elements of its one argument in place of it. -/
  | spread (target : String) (erased : List TypeRef)
  | static (reference name : String)
  | method (name : String)
  deriving DecidableEq

inductive Value
  | null
  | given (index : Nat)
  | object (address : Nat)
  | outcome (operation : Operation) (args : List Value)
  | supplier (self : Option Nat) (locals : List (String × Value)) (body : Expr)

namespace Value

def isNull : Value → Bool
  | null => true
  | _ => false

def isForeign : Value → Bool
  | null => true
  | given _ => true
  | _ => false

end Value

structure Object where
  type : NestedClass
  fields : List (String × Value)

abbrev Heap := List Object

def fieldsAt (h : Heap) (address : Nat) : List Field :=
  (h[address]?.map (·.type.fields)).getD []

inductive Outcome (α : Type)
  | ok (value : α) (heap : Heap)
  | refused (heap : Heap)
  | stuck

def Exec (α : Type) : Type := Heap → Outcome α

namespace Exec

def bind {α β : Type} (x : Exec α) (f : α → Exec β) : Exec β := fun h =>
  match x h with
  | .ok v h' => f v h'
  | .refused h' => .refused h'
  | .stuck => .stuck

instance : Monad Exec where
  pure v := fun h => .ok v h
  bind := bind

def refuse {α : Type} : Exec α := fun h => .refused h

def fail {α : Type} : Exec α := fun _ => .stuck

def allocate (o : Object) : Exec Nat := fun h => .ok h.length (h ++ [o])

def readField (address : Nat) (name : String) : Exec Value := fun h =>
  match h[address]?.bind fun o => o.fields.lookup name with
  | some v => .ok v h
  | none => .stuck

def writeField (address : Nat) (name : String) (v : Value) : Exec Unit := fun h =>
  match h[address]? with
  | none => .stuck
  | some o =>
    if name ∈ o.fields.map Prod.fst then
      .ok () (h.set address
        { o with fields := o.fields.map fun e => if e.1 = name then (name, v) else e })
    else .stuck

theorem bind_ok {α β : Type} {x : Exec α} {f : α → Exec β} {h h' : Heap} {v : α}
    (hx : x h = .ok v h') : (x >>= f) h = f v h' := by
  change bind x f h = _
  rw [bind, hx]

theorem bind_refused {α β : Type} {x : Exec α} {f : α → Exec β} {h h' : Heap}
    (hx : x h = .refused h') : (x >>= f) h = .refused h' := by
  change bind x f h = _
  rw [bind, hx]

end Exec

structure Frame where
  self : Option Nat := none
  locals : List (String × Value) := []

def Frame.variable (f : Frame) (name : String) : Exec Value :=
  match f.locals.lookup name, f.self with
  | some v, _ => pure v
  | none, some address => Exec.readField address name
  | none, none => .fail

def Frame.checkNotNull (f : Frame) : List String → Exec Unit
  | [] => pure ()
  | name :: names => do
    let v ← f.variable name
    if v.isNull then .refuse else f.checkNotNull names

inductive Entry
  | constructor (type : String)
  | static (name : String)
  | instance (address : Nat) (name : String)

abbrev Invoke := Entry → List Value → Exec Value

def Callee.enter (invoke : Invoke) (f : Frame) (args : List Value) : Callee → Exec Value
  | .constructor (.written type) => invoke (.constructor type) args
  | .constructor type => pure (.outcome (.new type) args)
  | .inferred reference => pure (.outcome (.inferred reference) args)
  | .method .implicit name => invoke (.static name) args
  | .method (.value receiver) name => do
    match ← f.variable receiver with
    | .null => .refuse
    | .object address => invoke (.instance address name) args
    | v => pure (.outcome (.method name) (v :: args))
  | .method (.static reference) name => pure (.outcome (.static reference name) args)

mutual

def Expr.eval (invoke : Invoke) (f : Frame) : Expr → Exec Value
  | .this =>
    match f.self with
    | some address => pure (.object address)
    | none => .fail
  | .null => pure .null
  | .name text => f.variable text
  | .field owner member => do
    match ← owner.eval invoke f with
    | .object address => Exec.readField address member
    | _ => .fail
  | .call callee args => do
    let values ← Expr.evalAll invoke f args
    callee.enter invoke f values
  | .ifNull subject whenNull otherwise => do
    let v ← subject.eval invoke f
    if v.isNull then whenNull.eval invoke f else otherwise.eval invoke f
  | .supplier value => pure (.supplier f.self f.locals value)
  | .truth _ => .fail
  | .quoted _ => .fail
  | .cast _ _ => .fail
  | .binary _ _ _ => .fail

def Expr.evalAll (invoke : Invoke) (f : Frame) : List Expr → Exec (List Value)
  | [] => pure []
  | e :: es => do
    let v ← e.eval invoke f
    let vs ← Expr.evalAll invoke f es
    pure (v :: vs)

end

/-- The declared types of the variables in scope. -/
abbrev Types := String → Option TypeRef

def reflectiveCall (types : Types) (target : String) (erased : List TypeRef) : List Expr → Operation
  | [.name x] =>
    if (types x).any (·.isReferenceArray) then .spread target erased else .newInstance target erased
  | _ => .newInstance target erased

def runBody (types : Types) (invoke : Invoke) (f : Frame) : List Stmt → Exec Value
  | [] => pure .null
  | .step (.comment _) :: rest => runBody types invoke f rest
  | .step (.nullChecks _ names) :: rest => do
    f.checkNotNull names
    runBody types invoke f rest
  | .step (.assign owner field value) :: rest => do
    match ← owner.eval invoke f with
    | .object address =>
      let v ← value.eval invoke f
      Exec.writeField address field v
      runBody types invoke f rest
    | _ => .fail
  | .step (.declare type name value) :: rest => do
    let v ← value.eval invoke f
    let types' : Types := fun x => if x = name then some type else types x
    runBody types' invoke { f with locals := (name, v) :: f.locals } rest
  | .step (.eval value) :: rest => do
    let _ ← value.eval invoke f
    runBody types invoke f rest
  | .step (.ret value) :: _ => value.eval invoke f
  | .step (.retCall callee args) :: _ => (Expr.call callee args).eval invoke f
  | .step (.retAll _) :: _ => .fail
  | .when _ _ :: _ => .fail
  | .reflective target erased args :: _ => do
    let handle := Value.outcome (.lookup target erased) []
    let values ← Expr.evalAll invoke
      { f with locals := (Reflection.handle, handle) :: f.locals } args
    pure (.outcome (reflectiveCall types target erased args) values)

def initialise (invoke : Invoke) : List Field → Exec (List (String × Value))
  | [] => pure []
  | f :: fs => do
    let v ← (f.value.map fun e => e.eval invoke {}).getD (pure .null)
    let vs ← initialise invoke fs
    pure ((f.name, v) :: vs)

def Method.frame (m : Method) (self : Option Nat) (args : List Value) : Frame where
  self := self
  locals := (m.formals.map (·.name)).zip args

def Method.typesIn (m : Method) (fields : List Field) : Types := fun x =>
  ((m.formals.find? (·.name = x)).map (·.type)).or ((fields.find? (·.name = x)).map (·.type))

def Method.answers (name : String) (arity : Nat) (m : Method) : Bool :=
  !m.isStatic && m.result.isSome && m.name = name && m.formals.length = arity

def NestedClass.instance? (c : NestedClass) (name : String) (arity : Nat) : Option Method :=
  (c.methods.filter (Method.answers name arity)).getLast?

namespace SourceUnit

def outer (u : SourceUnit) : NestedClass := ⟨u.name, u.fields.getD [], u.methods⟩

def constructor? (u : SourceUnit) (type : String) (arity : Nat) : Option (NestedClass × Method) :=
  (u.outer :: u.nestedClasses).findSome? fun c =>
    if c.name = type then
      (c.methods.find? fun m => m.result.isNone && m.formals.length = arity).map fun m => (c, m)
    else none

def static? (u : SourceUnit) (name : String) (arity : Nat) : Option Method :=
  u.methods.find? fun m => m.isStatic && m.name = name && m.formals.length = arity

def invoke (u : SourceUnit) : (depth : Nat) → Invoke
  | 0, _, _ => .fail
  | depth + 1, .constructor type, args =>
    match u.constructor? type args.length with
    | none => .fail
    | some (c, m) => do
      let fields ← initialise (u.invoke depth) c.fields
      let address ← Exec.allocate ⟨c, fields⟩
      let _ ← runBody (m.typesIn c.fields) (u.invoke depth) (m.frame (some address) args) m.body
      pure (.object address)
  | depth + 1, .static name, args =>
    match u.static? name args.length with
    | none => .fail
    | some m => runBody (m.typesIn []) (u.invoke depth) (m.frame none args) m.body
  | depth + 1, .instance address name, args => fun h =>
    match h[address]?.bind fun o => o.type.instance? name args.length with
    | none => .stuck
    | some m =>
      runBody (m.typesIn (fieldsAt h address)) (u.invoke depth) (m.frame (some address) args)
        m.body h

def run (u : SourceUnit) (depth : Nat) (self : Option Nat) (m : Method) (args : List Value) :
    Exec Value := fun h =>
  runBody (m.typesIn (self.elim [] (fieldsAt h))) (u.invoke depth) (m.frame self args) m.body h

end SourceUnit

inductive Call
  | enter (m : Method) (args : List Value)
  | on (address : Nat) (m : Method) (args : List Value)
  | finish (collector : Value)

def Method.Fits (m : Method) (args : List Value) : Prop :=
  args.length = m.formals.length ∧ ∀ v ∈ args, v.isForeign = true

section Laws

variable {types : Types} {invoke : Invoke} {f : Frame} {h h₁ h₂ h₃ : Heap} {v : Value}
  {name : String}

theorem Frame.variable_local (hlocal : f.locals.lookup name = some v) :
    f.variable name h = .ok v h := by
  rw [Frame.variable, hlocal]
  rfl

theorem Exec.readField_ok {address : Nat} {o : Object} (hobject : h[address]? = some o)
    (hfield : o.fields.lookup name = some v) : Exec.readField address name h = .ok v h := by
  rw [Exec.readField, hobject, Option.bind_some, hfield]

theorem runBody_assign {owner value : Expr} {field : String} {address : Nat} {rest : List Stmt}
    (howner : owner.eval invoke f h = .ok (.object address) h₁)
    (hvalue : value.eval invoke f h₁ = .ok v h₂)
    (hwrite : Exec.writeField address field v h₂ = .ok () h₃) :
    runBody types invoke f (.step (.assign owner field value) :: rest) h =
      runBody types invoke f rest h₃ := by
  rw [runBody, Exec.bind_ok howner]
  change (value.eval invoke f >>= _) h₁ = _
  rw [Exec.bind_ok hvalue, Exec.bind_ok hwrite]

theorem runBody_nullCheck_refused {checker : String} {rest : List Stmt}
    (hvariable : f.variable name h = .ok v h) (hv : v.isNull = true) :
    runBody types invoke f (.step (.nullChecks checker [name]) :: rest) h = .refused h := by
  have hcheck : f.checkNotNull [name] h = .refused h := by
    rw [Frame.checkNotNull, Exec.bind_ok hvariable, hv]
    rfl
  rw [runBody, Exec.bind_refused hcheck]

theorem Value.eq_null (hv : v.isNull = true) : v = .null := by
  cases v with
  | null => rfl
  | _ => cases hv

end Laws

end StagedBuilder.Java
