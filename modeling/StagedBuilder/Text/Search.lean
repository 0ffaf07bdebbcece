import StagedBuilder.Text.Blank

namespace StagedBuilder.Text

def cut? (pat : List Char) : List Char → Option (List Char × List Char)
  | [] => if pat = [] then some ([], []) else none
  | c :: cs =>
    if pat.isPrefixOf (c :: cs) then some ([], (c :: cs).drop pat.length)
    else (cut? pat cs).map fun (before, after) => (c :: before, after)

def replaceAfter (pat new : List Char) : Nat → List Char → List Char
  | _, [] => []
  | 0, c :: cs =>
    if pat.isPrefixOf (c :: cs) then new ++ replaceAfter pat new (pat.length - 1) cs
    else c :: replaceAfter pat new 0 cs
  | skip + 1, _ :: cs => replaceAfter pat new skip cs

def replace (pat new s : List Char) : List Char := replaceAfter pat new 0 s

def replaceFirst (pat new s : List Char) : List Char :=
  match cut? pat s with
  | some (before, after) => before ++ new ++ after
  | none => s

example : replace "aa".toList "b".toList "aaaca".toList = "baca".toList := by decide

def dropTrailing (c : Char) (s : List Char) : List Char :=
  if s.getLast? = some c then s.dropLast else s

/-- A line ends at a line feed, with at most one carriage return before it; the last line may
lack its end. -/
def linesOfPieces : List (List Char) → List (List Char)
  | [] => []
  | [l] => if l = [] then [] else [l]
  | l :: ls => dropTrailing '\r' l :: linesOfPieces ls

def lines (s : List Char) : List (List Char) := linesOfPieces (pieces (· = '\n') s)

example : lines "a\r\n\nb\r".toList = ["a".toList, [], "b\r".toList] := by decide

end StagedBuilder.Text
