import StagedBuilder.Text.Search

namespace StagedBuilder.Text

structure Difference where
  line : Nat
  expected : List Char
  actual : List Char
  deriving DecidableEq

def missing : List Char := "<missing>".toList

def padded (count : Nat) (ls : List (List Char)) : List (List Char) :=
  ls ++ .replicate (count - ls.length) missing

def differences (expected actual : List Char) : List Difference :=
  let es := lines expected
  let as := lines actual
  let count := max es.length as.length
  (((padded count es).zip (padded count as)).zipIdx 1).filterMap fun ((e, a), line) =>
    if e = a then none else some ⟨line, e, a⟩

namespace Difference

def text (d : Difference) : String :=
  "Line " ++ toString d.line ++ ":\n  expected: " ++ .ofList d.expected ++ "\n  actual:   " ++
    .ofList d.actual ++ "\n"

end Difference

def mismatch? (expected actual : String) : Option String :=
  if expected = actual then none
  else
    some ("Content mismatch:\n" ++
      "".intercalate ((differences expected.toList actual.toList).map (·.text)))

end StagedBuilder.Text
