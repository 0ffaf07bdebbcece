import StagedBuilder.ClassName

namespace StagedBuilder

structure SourceFile where
  className : String
  content : String
  deriving DecidableEq, Repr

namespace SourceFile

def path (f : SourceFile) : String := ClassName.sourcePath f.className

end SourceFile

end StagedBuilder
