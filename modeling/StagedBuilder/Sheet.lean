import StagedBuilder.Imports
import StagedBuilder.Text.Search

/-!
A sheet of indented lines. A line that ends with an opening brace indents what follows it. The block
of imports is put in its place when the sheet is finished.
-/

namespace StagedBuilder

open Text

inductive Mark
  | line (text : String)
  | blank
  | indent
  | dedent
  | close
  | reopen (text : String)
  | imports
  | call (head : String) (args : List String) (tail : String)
  deriving DecidableEq, Repr

structure Sheet where
  depth : Nat := 0
  text : String := ""
  deriving DecidableEq, Repr

namespace Sheet

def importsMark : String := "<<IMPORTS_HERE>>"

def step : Nat := 4

def maxInlineArgs : Nat := 3

def maxInlineWidth : Nat := 80

def column (s : Sheet) : Nat := s.depth * step

def line (s : Sheet) (text : String) : Sheet where
  depth := if text.toList.getLast? = some '\x7b' then s.depth + 1 else s.depth
  text := s.text ++ .ofList (.replicate s.column ' ') ++ text ++ "\n"

def blank (s : Sheet) : Sheet := { s with text := s.text ++ "\n" }

def indent (s : Sheet) : Sheet := { s with depth := s.depth + 1 }

def dedent (s : Sheet) : Sheet := { s with depth := s.depth - 1 }

def argumentLines (s : Sheet) (tail : String) : List String → Sheet
  | [] => s
  | [a] => s.line (a ++ tail)
  | a :: as => argumentLines (s.line (a ++ ",")) tail as

def call (s : Sheet) (head : String) (args : List String) (tail : String) : Sheet :=
  let whole := head ++ ", ".intercalate args ++ tail
  if args.length ≤ maxInlineArgs ∧ s.column + whole.utf8ByteSize ≤ maxInlineWidth then s.line whole
  else ((s.line head).indent.indent.argumentLines tail args).dedent.dedent

def put (s : Sheet) : Mark → Sheet
  | .line text => s.line text
  | .blank => s.blank
  | .indent => s.indent
  | .dedent => s.dedent
  | .close => s.dedent.line "\x7d"
  | .reopen text => s.dedent.line ("\x7d " ++ text)
  | .imports => s.line importsMark
  | .call head args tail => s.call head args tail

def putAll (s : Sheet) (marks : List Mark) : Sheet := marks.foldl put s

def finish (s : Sheet) (imports : Imports) : String :=
  let block := if imports.code = "" then "" else "\n" ++ imports.code
  .ofList (replaceFirst (importsMark ++ "\n").toList block.toList s.text.toList)

end Sheet

end StagedBuilder
