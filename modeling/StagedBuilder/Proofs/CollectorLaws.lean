import StagedBuilder.Proofs.SetterSites
import StagedBuilder.Proofs.ValueFlow

namespace StagedBuilder.Builder

open Java

structure Collects (p : Parameter) (type : TypeExpr) (col : Collection) : Prop where
  read : p.type = .parsed type
  known : collections.lookup type.base = some col
  arity : col.kind.arity = type.args.length

structure SetsIn (s : SupportClasses) (p : Parameter) (owner : Expr) (next : Continuation)
    (m : Method) : Prop extends Sets s p m where
  result : m.result = some next.type
  body : m.body = p.nullCheck s ++ [
    .step (.assign owner p.name (.name p.name)),
    .step (.ret next.value)]

/-- The method assigns a new collection to the field of the owner and hands it to a builder of
collections, which goes on with `next`. -/
structure CollectsIn (s : SupportClasses) (p : Parameter) (type : TypeExpr) (col : Collection)
    (owner : Expr) (next : Continuation) (m : Method) : Prop where
  isPublic : m.isPublic = true
  isStatic : m.isStatic = false
  name : m.name = p.name
  formals : m.formals = []
  result : m.result = some (.collector (collectionBuilder s col.kind) type.args next.type)
  body : m.body = [
    .step (.assign owner p.name (.ifNull (.field owner p.name)
      (.call (.inferred col.implementation) [])
      (.call (.inferred col.implementation) [.field owner p.name]))),
    .step (.ret (.call (.inferred (collectionBuilder s col.kind))
      [.supplier next.value, .field owner p.name]))]

/-- Accessors stand right before the setters of collections, and nowhere else. -/
inductive Arranged (s : SupportClasses) (b : Builder) (owner : Expr) : List Method → Prop
  | nil : Arranged s b owner []
  | other {m : Method} {ms : List Method} (direct : m.result.any (·.isCollector) = false)
      (keeps : ∀ p ∈ b.params, ¬ Sets s p m) (rest : Arranged s b owner ms) :
      Arranged s b owner (m :: ms)
  | single {p : Parameter} {next : Continuation} {m : Method} {ms : List Method}
      (known : p ∈ b.params) (goes : Goes b owner next)
      (other : ∀ type col, ¬ Collects p type col) (setter : SetsIn s p owner next m)
      (rest : Arranged s b owner ms) : Arranged s b owner (m :: ms)
  | pair {p : Parameter} {type : TypeExpr} {col : Collection} {next : Continuation} {m m' : Method}
      {ms : List Method} (known : p ∈ b.params) (goes : Goes b owner next)
      (collects : Collects p type col) (accessor : CollectsIn s p type col owner next m)
      (setter : SetsIn s p owner next m') (rest : Arranged s b owner ms) :
      Arranged s b owner (m :: m' :: ms)

section Arrangement

variable {s : SupportClasses} {b : Builder} {owner : Expr} {next : Continuation} {p : Parameter}
  {m : Method} {ms ms' : List Method}

theorem Goes.direct (h : Goes b owner next) : next.type.isCollector = false := by
  cases h with
  | stays => rfl
  | advances => rfl
  | builds => rfl

theorem SetsIn.direct (h : SetsIn s p owner next m) (hnext : Goes b owner next) :
    m.result.any (·.isCollector) = false := by
  rw [h.result, Option.any_some, hnext.direct]

namespace Arranged

theorem append (h : Arranged s b owner ms) (h' : Arranged s b owner ms') :
    Arranged s b owner (ms ++ ms') := by
  induction h with
  | nil => exact h'
  | other direct keeps rest ih => exact .other direct keeps ih
  | single known goes other setter rest ih => exact .single known goes other setter ih
  | pair known goes collects accessor setter rest ih =>
    exact .pair known goes collects accessor setter ih

theorem flatMap {f : Parameter → List Method} {ps : List Parameter}
    (h : ∀ p ∈ ps, Arranged s b owner (f p)) : Arranged s b owner (ps.flatMap f) := by
  induction ps with
  | nil => exact .nil
  | cons p ps ih =>
    rw [List.forall_mem_cons] at h
    exact h.1.append (ih h.2)

end Arranged

end Arrangement

section Runs

variable {s : SupportClasses} {b : Builder} {c : NestedClass} {values : Parameter → Value}
  {h h' : Heap} {address : Nat} {o : Object} {p : Parameter} {next : Continuation} {m : Method}
  {v : Value} {types : Types} {invoke : Invoke} {calls : List Call} {vs : List Value}

end Runs

end StagedBuilder.Builder
