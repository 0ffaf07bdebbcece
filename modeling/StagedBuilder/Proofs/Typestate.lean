import StagedBuilder.Proofs.SyntaxLaws
import StagedBuilder.Proofs.WrittenLaws

namespace StagedBuilder.Builder

open Java

section Paths

variable {s : SupportClasses} {b : Builder} {before rest : List Parameter}
  {current next : Parameter}

end Paths

end StagedBuilder.Builder
