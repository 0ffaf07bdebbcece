import StagedBuilder.Plan.Basic

namespace StagedBuilder

/-- The generated classes so far, the latest first, each with the type that it is generated for. -/
abbrev Claims := List (String × String)

namespace Claims

def claim (type : String) : Claims → List String → Claims × Option GenerationError
  | claims, [] => (claims, none)
  | claims, name :: names =>
    match claims.lookup name with
    | some first => (claims, some (.duplicateClass name first type))
    | none => claim type ((name, type) :: claims) names

end Claims

namespace Manifest

def plansAfter (defaults : Defaults) :
    Claims → List (String × TypeDecl) → Except GenerationError (List Plan)
  | _, [] => .ok []
  | claims, (name, d) :: rest => do
    let plan ← Plan.ofDecl defaults name d
    match claims.claim name plan.classNames with
    | (_, some e) => .error e
    | (claims, none) => return plan :: (← plansAfter defaults claims rest)

def plans (m : Manifest) : Except GenerationError (List Plan) := plansAfter m.defaults [] m.types

end Manifest

end StagedBuilder
