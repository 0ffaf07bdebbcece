import StagedBuilder.Text.Blank

namespace StagedBuilder.Text

def fillFrom (width : Nat) (line : List String) (size : Nat) : List String → List (List String)
  | [] => [line]
  | w :: ws =>
    if size + 1 + w.utf8ByteSize ≤ width then
      fillFrom width (line ++ [w]) (size + 1 + w.utf8ByteSize) ws
    else line :: fillFrom width [w] w.utf8ByteSize ws

def fill (width : Nat) : List String → List (List String)
  | [] => []
  | w :: ws => fillFrom width [w] w.utf8ByteSize ws

def wrap (width : Nat) (text : String) : List String :=
  (fill width ((words text.toList).map String.ofList)).map (" ".intercalate ·)

end StagedBuilder.Text
