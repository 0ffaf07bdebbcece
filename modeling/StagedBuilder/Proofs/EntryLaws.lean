import StagedBuilder.Proofs.CallLaws

namespace StagedBuilder.Builder

open Java

def entered (b : Builder) (m : Method) (args : List Value) (p : Parameter) : Value :=
  match args with
  | [] => initial p
  | v :: _ =>
    if m.result = some (.reference b.target) then v else .outcome (.method p.reader) [v]

inductive Standing (s : SupportClasses) (b : Builder) (values : Parameter → Value) (h : Heap) : Prop
  | builder {c : NestedClass} (isRoot : IsRoot s b c) (holds : Holds s b c values h)
  | empty (none : h = [])

section Entries

variable {s : SupportClasses} {b : Builder} {c : NestedClass} {h : Heap} {v : Value}
  {values : Parameter → Value} {p : Parameter} {m : Method} {args : List Value} {invoke : Invoke}

end Entries

end StagedBuilder.Builder
