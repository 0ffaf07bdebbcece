import StagedBuilder.Proofs.EntryLaws

/-! What holds between the calls that the users of a builder make, in whatever order. -/

namespace StagedBuilder.Builder

open Java

/-- The value of each parameter after the calls, of which the latest comes first. -/
def held (b : Builder) : List Call → Parameter → Value
  | [], p => initial p
  | .enter m args :: _, p => b.entered m args p
  | .on _ m args :: earlier, p => after m args (held b earlier) p
  | .finish _ :: earlier, p => held b earlier p

structure Kept (s : SupportClasses) (b : Builder) (calls : List Call) (h : Heap)
    (vs : List Value) : Prop where
  standing : Standing s b (b.held calls) h
  known : ∀ v ∈ vs, ∃ m values t, Reply s b m values h t v
  newest : ∀ v ∈ vs.head?, ∃ m t, Reply s b m (b.held calls) h t v

section Replies

variable {s : SupportClasses} {b : Builder} {m : Method} {values : Parameter → Value}
  {h h' : Heap} {t : TypeRef} {v : Value}

theorem Reply.mono (hle : h.length ≤ h'.length) (hv : Reply s b m values h t v) :
    Reply s b m values h' t v := by
  cases hv with
  | builder known => exact .builder (Nat.lt_of_lt_of_le known hle)
  | target => exact .target
  | collector known goes fills named =>
    exact .collector (Nat.lt_of_lt_of_le known hle) goes fills named

theorem operation_ne_inferred (reference : String) : b.operation ≠ .inferred reference := by
  unfold operation
  cases b.construction with
  | direct => nofun
  | reflective => cases b.passesArray <;> nofun
  | delegate implementation => nofun

theorem Reply.args {args : List Value}
    (hv : Reply s b m values h t (.outcome b.operation args)) :
    args = b.params.map fun p => passed s p (values p) := by
  generalize hw : Value.outcome b.operation args = w at hv
  cases hv with
  | builder known => cases hw
  | target => exact (Value.outcome.inj hw).2
  | collector known goes fills named =>
    exact absurd (Value.outcome.inj hw).1 (operation_ne_inferred _)

end Replies

section Sessions

variable {s : SupportClasses} {b : Builder} {c : NestedClass} {calls : List Call} {h h' : Heap}
  {vs : List Value} {values : Parameter → Value} {address : Nat} {o : Object} {m : Method}
  {args : List Value} {v : Value} {t : TypeRef}

theorem Holds.offered (hc : IsRoot s b c) (hh : Holds s b c values h)
    (hfound : h[address]? = some o) (hm : m ∈ o.type.methods) (hpublic : m.isPublic = true)
    (hinstance : m.isStatic = false) : Offered s b (ownerAt address) m := by
  obtain ⟨stages, rfl, hstages⟩ := hh
  cases address with
  | zero =>
    obtain rfl := Option.some.inj hfound
    cases hc with
    | outer shape => exact offered_of_outer (outer_of_mem hm) hpublic hinstance
    | copy emits => exact offered_of_copy emits hm hpublic
  | succ n =>
    obtain ⟨stage, hstage, rfl⟩ := hstages o (List.mem_of_getElem? hfound)
    exact offered_of_stage hstage hm hpublic

theorem Standing.holds (hstanding : Standing s b values h) (haddress : address < h.length) :
    ∃ c, IsRoot s b c ∧ Holds s b c values h := by
  cases hstanding with
  | builder isRoot holds => exact ⟨_, isRoot, holds⟩
  | empty none =>
    rw [none] at haddress
    cases haddress

namespace Kept

theorem step {call : Call} (hk : Kept s b calls h vs) (hle : h.length ≤ h'.length)
    (hstanding : Standing s b (b.held (call :: calls)) h')
    (hreply : Reply s b m (b.held (call :: calls)) h' t v) :
    Kept s b (call :: calls) h' (v :: vs) := by
  refine ⟨hstanding, ?_, ?_⟩
  · rw [List.forall_mem_cons]
    refine ⟨⟨m, _, t, hreply⟩, ?_⟩
    intro w hw
    obtain ⟨m', values, t', hold⟩ := hk.known w hw
    exact ⟨m', values, t', hold.mono hle⟩
  · intro w hw
    obtain rfl := Option.some.inj hw
    exact ⟨m, t, hreply⟩

end Kept

end Sessions

end StagedBuilder.Builder
