import StagedBuilder.Text.Letter

namespace StagedBuilder

open Text

def keywords : List String := [
  "abstract", "assert", "boolean", "break", "byte", "case", "catch", "char", "class", "const",
  "continue", "default", "do", "double", "else", "enum", "extends", "final", "finally", "float",
  "for", "goto", "if", "implements", "import", "instanceof", "int", "interface", "long", "native",
  "new", "package", "private", "protected", "public", "return", "short", "static", "strictfp",
  "super", "switch", "synchronized", "this", "throw", "throws", "transient", "try", "void",
  "volatile", "while", "_", "true", "false", "null"]

def isKeyword (name : String) : Bool := keywords.contains name

inductive IdentifierFault
  | empty
  | start
  | inside
  deriving DecidableEq

namespace IdentifierFault

def message : IdentifierFault → String
  | .empty => "name cannot be empty"
  | .start => "name must start with a letter, '_' or '$'"
  | .inside => "name must contain only letters, digits, '_' and '$'"

end IdentifierFault

def startsIdentifier (c : Char) : Bool := isLetter c || c = '_' || c = '$'

def continuesIdentifier (c : Char) : Bool := isLetter c || isNumeral c || c = '_' || c = '$'

def identifierFault? (name : String) : Option IdentifierFault :=
  match name.toList with
  | [] => some .empty
  | c :: cs =>
    if startsIdentifier c then
      if cs.all continuesIdentifier then none else some .inside
    else some .start

def isIdentifier (name : String) : Bool := (identifierFault? name).isNone

end StagedBuilder
