import Mathlib.Data.List.Forall2
import StagedBuilder.Implementation
import StagedBuilder.Proofs.Execution

/-!
What the methods give that objects have from `java.lang.Object`. They change nothing but texts of
their own, so objects and what the library makes of them are given once and for all.
-/

namespace StagedBuilder.Java

/-- The objects that there are, and what the library makes of them. -/
structure World (V : Type) where
  null : V
  classOf : V → String
  fields : V → List (String × V)
  /-- Whether both are null, or the first one says that it equals the second. -/
  equal : V → V → Bool
  hash : List V → Int32
  textOf : V → String
  elements : V → Option (List V)
  chars : V → Option String

namespace World

variable {V : Type} (w : World V)

/-- Equality and hash codes of objects keep their contract, and arrays equal only themselves. -/
structure Lawful : Prop where
  equal_self : ∀ v, w.equal v v = true
  hash_congr : ∀ vs vs', List.Forall₂ (fun v v' => w.equal v v' = true) vs vs' →
    w.hash vs = w.hash vs'
  elements_congr : ∀ v v', w.equal v v' = true → w.elements v = w.elements v'

/-- The hash code of values with these declared types. One array is the list of what is hashed. -/
def hashed : List (Option TypeRef) → List V → Int32
  | [t], [v] =>
    if t.any (·.isReferenceArray) then (w.elements v).elim 0 w.hash else w.hash [v]
  | _, vs => w.hash vs

/-- The text of a value with the declared type. There is none for null instead of characters. -/
def spelled (t : Option TypeRef) (v : V) : Option String :=
  if t.any (·.isCharArray) then w.chars v else some (w.textOf v)

variable {w}

theorem Lawful.hashed_congr (hw : w.Lawful) (types : List (Option TypeRef)) {vs vs' : List V}
    (h : List.Forall₂ (fun v v' => w.equal v v' = true) vs vs') :
    w.hashed types vs = w.hashed types vs' := by
  have hhash : w.hash vs = w.hash vs' := hw.hash_congr vs vs' h
  match types, h with
  | [], _ => exact hhash
  | _ :: _ :: _, _ => exact hhash
  | [_], .nil => rfl
  | [_], .cons _ (.cons _ _) => exact hhash
  | [_], .cons hequal .nil => rw [hashed, hashed, hw.elements_congr _ _ hequal, hhash]

end World

inductive Datum (V : Type)
  | value (v : V)
  | truth (value : Bool)
  | type (name : String)
  | text (s : String)
  | number (n : Int32)

structure Scope (V : Type) where
  self : V
  fields : List Field
  locals : List (String × Datum V) := []

section Evaluation

variable {V : Type} [DecidableEq V] (w : World V) (f : Scope V)

namespace Datum

def value? : Datum V → Option V
  | .value v => some v
  | _ => none

def same : Datum V → Datum V → Option Bool
  | .value v, .value v' => some (decide (v = v'))
  | .type t, .type t' => some (decide (t = t'))
  | _, _ => none

end Datum

def Scope.find (name : String) : Option (Datum V) :=
  match f.locals.lookup name with
  | some d => some d
  | none => ((w.fields f.self).lookup name).map .value

def Scope.typeOf (e : Expr) : Option TypeRef :=
  let field? (name : String) := (f.fields.find? (·.name = name)).map (·.type)
  match e with
  | .name name => if (f.locals.lookup name).isSome then none else field? name
  | .field _ name => field? name
  | _ => none

def textBuilderClass : String := "java.lang.StringBuilder"

def library (types : List (Option TypeRef)) (reference name : String) (args : List (Datum V)) :
    Option (Datum V) :=
  if reference = Implementation.objectsClass ∧ name = "equals" then
    match args with
    | [.value v, .value v'] => some (.truth (w.equal v v'))
    | _ => none
  else if reference = Implementation.objectsClass ∧ name = "hash" then
    (args.mapM Datum.value?).map fun vs => .number (w.hashed types vs)
  else if reference = Implementation.stringClass ∧ name = "valueOf" then
    match types, args with
    | [t], [.value v] => (w.spelled t v).map .text
    | _, _ => none
  else none

def ask (name : String) : Datum V → Option (Datum V)
  | .value v => if name = "getClass" ∧ v ≠ w.null then some (.type (w.classOf v)) else none
  | .text t => if name = "toString" then some (.text t) else none
  | _ => none

def Callee.datum (types : List (Option TypeRef)) (args : List (Datum V)) :
    Callee → Option (Datum V)
  | .constructor type =>
    if type = .reference textBuilderClass ∧ args.length = 0 then some (.text "") else none
  | .inferred _ => none
  | .method .implicit name => if args.length = 0 then ask w name (.value f.self) else none
  | .method (.value receiver) name =>
    if args.length = 0 then (f.find w receiver).bind (ask w name) else none
  | .method (.static reference) name => library w types reference name args

mutual

def Expr.datum : Expr → Option (Datum V)
  | .this => some (.value f.self)
  | .null => some (.value w.null)
  | .truth value => some (.truth value)
  | .name text => f.find w text
  | .quoted text => some (.text text)
  | .field owner member => do
    match ← owner.datum with
    | .value v => ((w.fields v).lookup member).map .value
    | _ => none
  | .call callee args => do callee.datum w f (args.map f.typeOf) (← Expr.datums args)
  | .cast type value => do
    match ← value.datum with
    | .value v => if v = w.null ∨ w.classOf v = type then some (.value v) else none
    | _ => none
  | .binary operator left right => do
    let d ← left.datum
    if operator = "||" then
      match d with
      | .truth true => some (.truth true)
      | .truth false => right.datum
      | _ => none
    else
      let same ← d.same (← right.datum)
      if operator = "==" then some (.truth same)
      else if operator = "!=" then some (.truth !same)
      else none
  | .ifNull _ _ _ => none
  | .supplier _ => none

def Expr.datums : List Expr → Option (List (Datum V))
  | [] => some []
  | e :: es => do
    let d ← e.datum
    let ds ← Expr.datums es
    some (d :: ds)

end

def Expr.all : List Expr → Option Bool
  | [] => some true
  | e :: es =>
    match e.datum w f with
    | some (.truth true) => Expr.all es
    | some (.truth false) => some false
    | _ => none

inductive Flow (V : Type)
  | goesOn (f : Scope V)
  | gives (d : Datum V)

def Scope.push (name : String) (d : Datum V) : Scope V := { f with locals := (name, d) :: f.locals }

def Step.flow : Step → Option (Flow V)
  | .comment _ => some (.goesOn f)
  | .declare _ name value => (value.datum w f).map fun d => .goesOn (f.push name d)
  | .eval (.call (.method (.value receiver) name) [part]) =>
    match f.locals.lookup receiver, part.datum w f with
    | some (.text t), some (.text t') =>
      if name = "append" then some (.goesOn (f.push receiver (.text (t ++ t')))) else none
    | _, _ => none
  | .ret value => (value.datum w f).map .gives
  | .retAll conditions => (Expr.all w f conditions).map fun b => .gives (.truth b)
  | _ => none

def flowAll (f : Scope V) : List Step → Option (Flow V)
  | [] => some (.goesOn f)
  | s :: rest => do
    match ← s.flow w f with
    | .goesOn f => flowAll f rest
    | .gives d => some (.gives d)

def Stmt.flow : Stmt → Option (Flow V)
  | .step s => s.flow w f
  | .when condition body => do
    match ← condition.datum w f with
    | .truth true => flowAll w f body
    | .truth false => some (.goesOn f)
    | _ => none
  | .reflective _ _ _ => none

def given (f : Scope V) : List Stmt → Option (Datum V)
  | [] => none
  | s :: rest => do
    match ← s.flow w f with
    | .goesOn f => given f rest
    | .gives d => some d

def Method.given (m : Method) (fields : List Field) (self : V) (args : List (Datum V)) :
    Option (Datum V) :=
  Java.given w ⟨self, fields, (m.formals.map (·.name)).zip args⟩ m.body

/-- What a call by the name gives. None goes through if the method is declared twice. -/
def SourceUnit.asked (u : SourceUnit) (self : V) (name : String) (args : List (Datum V)) :
    Option (Datum V) :=
  match u.methods.filter (Method.answers name args.length) with
  | [m] => m.given w (u.fields.getD []) self args
  | _ => none

end Evaluation

section Laws

variable {V : Type} [DecidableEq V] {w : World V} {f f' : Scope V} {d : Datum V} {e : Expr}
  {st : Stmt} {rest : List Stmt} {t t' name : String}

theorem Expr.datums_map {α : Type} {g : α → Expr} {d : α → Datum V} {xs : List α}
    (h : ∀ x ∈ xs, (g x).datum w f = some (d x)) :
    Expr.datums w f (xs.map g) = some (xs.map d) := by
  induction xs with
  | nil => rfl
  | cons x xs ih =>
    rw [List.forall_mem_cons] at h
    rw [List.map_cons, Expr.datums, h.1, ih h.2]
    rfl

omit [DecidableEq V] in
theorem Datum.mapM_value? (vs : List V) : (vs.map Datum.value).mapM Datum.value? = some vs := by
  induction vs with
  | nil => rfl
  | cons v vs ih =>
    rw [List.map_cons, List.mapM_cons, ih]
    rfl

omit [DecidableEq V] in
theorem library_hash (types : List (Option TypeRef)) (vs : List V) :
    library w types Implementation.objectsClass "hash" (vs.map .value) =
      some (.number (w.hashed types vs)) := by
  unfold library
  rw [if_neg (by decide), if_pos ⟨rfl, rfl⟩, Datum.mapM_value?]
  rfl

omit [DecidableEq V] in
theorem library_valueOf (t : Option TypeRef) (v : V) :
    library w [t] Implementation.stringClass "valueOf" [.value v] =
      (w.spelled t v).map .text := by
  unfold library
  rw [if_neg (by decide), if_neg (by decide), if_pos ⟨rfl, rfl⟩]

theorem given_of_gives (h : st.flow w f = some (.gives d)) : given w f (st :: rest) = some d := by
  rw [given, h]
  rfl

theorem given_of_goesOn (h : st.flow w f = some (.goesOn f')) :
    given w f (st :: rest) = given w f' rest := by
  rw [given, h]
  rfl

theorem given_ret (h : e.datum w f = some d) : given w f (.step (.ret e) :: rest) = some d := by
  apply given_of_gives
  rw [Stmt.flow, Step.flow, h]
  rfl

theorem given_declare {type : TypeRef} (h : e.datum w f = some d) :
    given w f (.step (.declare type name e) :: rest) = given w (f.push name d) rest := by
  apply given_of_goesOn
  rw [Stmt.flow, Step.flow, h]
  rfl

theorem given_append (hlocal : f.locals.lookup name = some (.text t))
    (hpart : e.datum w f = some (.text t')) :
    given w f (.step (.eval (.call (.method (.value name) "append") [e])) :: rest) =
      given w (f.push name (.text (t ++ t'))) rest := by
  apply given_of_goesOn
  rw [Stmt.flow, Step.flow, hlocal, hpart]
  rfl

theorem given_append_none (hpart : e.datum w f = none) :
    given w f (.step (.eval (.call (.method (.value name) "append") [e])) :: rest) = none := by
  have hflow : (Step.eval (.call (.method (.value name) "append") [e])).flow w f = none := by
    rw [Step.flow, hpart]
    cases f.locals.lookup name with
    | none => rfl
    | some d => cases d <;> rfl
  rw [given, Stmt.flow, hflow]
  rfl

theorem given_when_true {steps : List Step} (hcondition : e.datum w f = some (.truth true))
    (hsteps : flowAll w f steps = some (.gives d)) :
    given w f (.when e steps :: rest) = some d := by
  apply given_of_gives
  rw [Stmt.flow, hcondition]
  exact hsteps

theorem given_when_false {steps : List Step} (hcondition : e.datum w f = some (.truth false)) :
    given w f (.when e steps :: rest) = given w f rest := by
  apply given_of_goesOn
  rw [Stmt.flow, hcondition]
  rfl

theorem Expr.all_map {α : Type} {g : α → Expr} {b : α → Bool} {xs : List α}
    (h : ∀ x ∈ xs, (g x).datum w f = some (.truth (b x))) :
    Expr.all w f (xs.map g) = some (xs.all b) := by
  induction xs with
  | nil => rfl
  | cons x xs ih =>
    rw [List.forall_mem_cons] at h
    rw [List.map_cons, Expr.all, h.1, List.all_cons]
    cases hb : b x with
    | false => rfl
    | true => exact ih h.2

end Laws

end StagedBuilder.Java
