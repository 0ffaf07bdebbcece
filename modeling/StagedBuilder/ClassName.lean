import StagedBuilder.Text.Case
import StagedBuilder.Text.Blank

namespace StagedBuilder.ClassName

open Text

def simple (name : String) : String :=
  .ofList (name.toList.reverse.takeWhile (· ≠ '.')).reverse

def package (name : String) : String :=
  .ofList ((name.toList.reverse.dropWhile (· ≠ '.')).drop 1).reverse

def segments (name : String) : List String :=
  (pieces (· = '.') name.toList).map .ofList

/-- Goes from the directory `base` to `part`; an absolute `part` replaces it. -/
def step (base part : String) : String :=
  if part.toList.head? = some '/' then part
  else if base.toList.getLast?.all (· = '/') then base ++ part
  else base ++ "/" ++ part

/-- Empty segments of the package name no directory. -/
def sourcePath (name : String) : String :=
  step (((segments (package name)).filter (· ≠ "")).foldl step "") (simple name ++ ".java")

end StagedBuilder.ClassName
