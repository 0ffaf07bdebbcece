namespace StagedBuilder

inductive JsonValue
  | text (value : String)
  | boolean (value : Bool)
  | array (elements : List JsonValue)
  | object (fields : List (String × JsonValue))

namespace JsonValue

def escape (c : Char) : List Char :=
  if c = '"' then ['\\', '"']
  else if c = '\\' then ['\\', '\\']
  else if c = '\x08' then ['\\', 'b']
  else if c = '\x0C' then ['\\', 'f']
  else if c = '\n' then ['\\', 'n']
  else if c = '\x0D' then ['\\', 'r']
  else if c = '\t' then ['\\', 't']
  else if c.toNat < 0x10 then "\\u000".toList ++ Nat.toDigits 16 c.toNat
  else if c.toNat < 0x20 then "\\u00".toList ++ Nat.toDigits 16 c.toNat
  else [c]

def quote (s : String) : String := "\"" ++ .ofList (s.toList.flatMap escape) ++ "\""

def newline (depth : Nat) : String := "\n" ++ .ofList (.replicate (2 * depth) ' ')

mutual

def pretty : JsonValue → Nat → String
  | .text value, _ => quote value
  | .boolean value, _ => if value then "true" else "false"
  | .array [], _ => "[]"
  | .array (v :: vs), depth =>
    "[" ++ newline (depth + 1) ++ v.pretty (depth + 1) ++ prettyElements vs (depth + 1) ++
      newline depth ++ "]"
  | .object [], _ => "\x7b\x7d"
  | .object ((key, v) :: fields), depth =>
    "\x7b" ++ newline (depth + 1) ++ quote key ++ ": " ++ v.pretty (depth + 1) ++
      prettyFields fields (depth + 1) ++ newline depth ++ "\x7d"

def prettyElements : List JsonValue → Nat → String
  | [], _ => ""
  | v :: vs, depth => "," ++ newline depth ++ v.pretty depth ++ prettyElements vs depth

def prettyFields : List (String × JsonValue) → Nat → String
  | [], _ => ""
  | (key, v) :: fields, depth =>
    "," ++ newline depth ++ quote key ++ ": " ++ v.pretty depth ++ prettyFields fields depth

end

end JsonValue

end StagedBuilder
