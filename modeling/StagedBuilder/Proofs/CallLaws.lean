import StagedBuilder.Proofs.CreationLaws

namespace StagedBuilder.Builder

open Java

inductive Reply (s : SupportClasses) (b : Builder) (m : Method) (values : Parameter → Value)
    (h : Heap) : TypeRef → Value → Prop
  | builder {type : String} {address : Nat} (known : address < h.length) :
      Reply s b m values h (.written type) (.object address)
  | target : Reply s b m values h (.reference b.target) (b.built s values)
  | collector {builder : String} {elements : List TypeExpr} {next : Continuation} {address : Nat}
      {p : Parameter} (known : address < h.length) (goes : Goes b (ownerAt address) next)
      (fills : p ∈ b.params) (named : m.name = p.name) :
      Reply s b m values h (.collector builder elements next.type)
        (.outcome (.inferred builder) [.supplier (some address) [] next.value, values p])

section Calls

variable {s : SupportClasses} {b : Builder} {c : NestedClass} {h : Heap}
  {values : Parameter → Value} {f : Frame} {address : Nat} {p : Parameter} {m : Method}
  {args : List Value} {types : Types}

theorem after_eq {v : Value} (hb : b.WellNamed) (hp : p ∈ b.params) (hname : m.name = p.name)
    (hsets : (!m.formals.isEmpty || m.result.any (·.isCollector)) = true)
    (hv : assigned p m args (values p) = v) :
    ∀ q ∈ b.params, (if q.name = p.name then v else values q) = after m args values q := by
  intro q hq
  rw [after, gives, hname, hsets, Bool.and_true]
  by_cases hsame : q.name = p.name
  · rw [hb.eq hq hp hsame, if_pos rfl, if_pos (decide_eq_true rfl), hv]
  · rw [if_neg hsame, if_neg]
    rw [decide_eq_true_iff]
    exact Ne.symm hsame

theorem nullCheck_eq (p : Parameter) :
    p.nullCheck s = [] ∨ p.nullCheck s = [.step (.nullChecks s.preconditions [p.name])] := by
  rw [Parameter.nullCheck]
  split_ifs
  · exact .inr rfl
  · exact .inl rfl

end Calls

end StagedBuilder.Builder
