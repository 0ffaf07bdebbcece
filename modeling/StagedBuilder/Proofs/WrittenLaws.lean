import StagedBuilder.Proofs.MethodLaws

namespace StagedBuilder.Builder

open Java

section Plain

variable {s : SupportClasses} {b : Builder} {p : Parameter} {site : Site} {x : String}

def Site.plain (site : Site) : List String :=
  site.owner.plain ++ site.next.type.plain ++ site.next.value.plain

end Plain

end StagedBuilder.Builder
