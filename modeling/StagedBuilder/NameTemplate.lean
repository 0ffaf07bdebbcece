import StagedBuilder.Text.Search

namespace StagedBuilder

open Text

structure NameTemplate where
  text : String
  deriving DecidableEq

namespace NameTemplate

def packageMark : List Char := "$\x7bpkg\x7d".toList

def simpleNameMark : List Char := "$\x7bsimpleName\x7d".toList

def builder : NameTemplate := ⟨"$\x7bpkg\x7d.builder.$\x7bsimpleName\x7dBuilder"⟩

def implementation : NameTemplate := ⟨"$\x7bpkg\x7d.builder.$\x7bsimpleName\x7dImpl"⟩

/-- In the default package the mark goes together with the dot after it. -/
def resolve (t : NameTemplate) (package simple : String) : String :=
  let text := t.text.toList
  let text := if package = "" then replace (packageMark ++ ['.']) [] text else text
  .ofList (replace simpleNameMark simple.toList (replace packageMark package.toList text))

end NameTemplate

end StagedBuilder
