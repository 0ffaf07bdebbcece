namespace StagedBuilder

inductive ReportLine
  | section (title : String)
  | entry (key value : String)
  | subentry (key value : String)
  | numbered (number : Nat) (text : String)
  | item (text : String)
  | added (text : String)
  | error (message : String)
  | divider (label : String)
  | preformatted (text : String)
  | blank
  deriving DecidableEq, Repr

namespace ReportLine

def text : ReportLine → String
  | .section title => title ++ ":"
  | .entry key value => key ++ ": " ++ value
  | .subentry key value => "  " ++ key ++ ": " ++ value
  | .numbered number text => "  " ++ toString number ++ ". " ++ text
  | .item text => "  - " ++ text
  | .added text => "  + " ++ text
  | .error message => "error: " ++ message
  | .divider label => "── " ++ label ++ " ──"
  | .preformatted text => text
  | .blank => ""

end ReportLine

def counted (n : Nat) (noun : String) : String :=
  toString n ++ " " ++ noun ++ if n = 1 then "" else "s"

end StagedBuilder
