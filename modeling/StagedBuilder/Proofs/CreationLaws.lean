import StagedBuilder.Proofs.MethodLaws
import StagedBuilder.Proofs.ObjectLaws

namespace StagedBuilder.Builder

open Java

section Lookup

variable {s : SupportClasses} {b : Builder} {c : NestedClass}

end Lookup

inductive IsRoot (s : SupportClasses) (b : Builder) : NestedClass → Prop
  | outer (shape : b.shape ≠ .factory) : IsRoot s b (b.unit s).outer
  | copy (emits : b.emitsCopy = true) : IsRoot s b (b.copyClass s)

section Creation

variable {s : SupportClasses} {b : Builder} {c : NestedClass} {h : Heap}
  {values : Parameter → Value} {f : Frame}

theorem IsRoot.typesIn (hb : b.WellNamed) (hc : IsRoot s b c) {m : Method}
    (hformals : m.formals = []) {p : Parameter} (hp : p ∈ b.params) :
    m.typesIn c.fields p.name = some p.typeRef := by
  have hfields : ∃ initialised, c.fields = b.params.map (field · initialised) := by
    cases hc with
    | outer shape => exact ⟨true, by simp [SourceUnit.outer, unit, shape]⟩
    | copy emits => exact ⟨false, rfl⟩
  obtain ⟨initialised, hfields⟩ := hfields
  have hfind : (b.params.map (field · initialised)).find? (·.name = p.name) =
      some (field p initialised) := by
    rw [List.find?_map]
    exact congrArg (Option.map (field · initialised)) (hb.find?_eq hp)
  rw [Method.typesIn, hformals, hfields, hfind]
  rfl

end Creation

end StagedBuilder.Builder
