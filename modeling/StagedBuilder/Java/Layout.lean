import StagedBuilder.Java.Uses
import StagedBuilder.Sheet
import StagedBuilder.Text.Filling

namespace StagedBuilder.Java

abbrev Names := String → String

def TypeRef.text (names : Names) : TypeRef → String
  | .reference text => names text
  | .expr type => type.renderWith names
  | .written text => text
  | .collector builder elements next =>
    names builder ++ "<" ++ ", ".intercalate (elements.map (·.renderWith names)) ++ ", " ++
      next.text names ++ ">"

def Callee.text (names : Names) : Callee → String
  | .constructor type => "new " ++ type.text names
  | .inferred reference => "new " ++ names reference ++ "<>"
  | .method .implicit name => name
  | .method (.value receiver) name => receiver ++ "." ++ name
  | .method (.static reference) name => names reference ++ "." ++ name

mutual

def Expr.text (names : Names) : Expr → String
  | .this => "this"
  | .null => "null"
  | .truth value => if value then "true" else "false"
  | .name text => text
  | .quoted text => "\"" ++ text ++ "\""
  | .field owner member => owner.text names ++ "." ++ member
  | .call callee args => callee.text names ++ "(" ++ ", ".intercalate (Expr.texts names args) ++ ")"
  | .ifNull subject whenNull otherwise =>
    subject.text names ++ " == null ? " ++ whenNull.text names ++ " : " ++ otherwise.text names
  | .supplier value => "() -> " ++ value.text names
  | .cast type value => "(" ++ type ++ ") " ++ value.text names
  | .binary operator left right => left.text names ++ " " ++ operator ++ " " ++ right.text names

def Expr.texts (names : Names) : List Expr → List String
  | [] => []
  | e :: es => e.text names :: Expr.texts names es

end

def nullCheckLine (names : Names) (checker name : String) : String :=
  names checker ++ ".checkNotNull(" ++ name ++ ", \"" ++ name ++ "\");"

def conjunctionLines (lead : String) : List String → List Mark
  | [] => []
  | [c] => [.line (lead ++ c ++ ";")]
  | c :: cs => .line (lead ++ c) :: conjunctionLines "&& " cs

def Step.marks (names : Names) : Step → List Mark
  | .comment text => [.line ("// " ++ text)]
  | .nullChecks checker checked => checked.map fun name => .line (nullCheckLine names checker name)
  | .assign owner field value =>
    [.line (owner.text names ++ "." ++ field ++ " = " ++ value.text names ++ ";")]
  | .declare type name value =>
    [.line (type.text names ++ " " ++ name ++ " = " ++ value.text names ++ ";")]
  | .eval value => [.line (value.text names ++ ";")]
  | .ret value => [.line ("return " ++ value.text names ++ ";")]
  | .retCall callee args =>
    [.call ("return " ++ callee.text names ++ "(") (Expr.texts names args) ");"]
  | .retAll [c] => [.line ("return " ++ c.text names ++ ";")]
  | .retAll conditions =>
    .line "return" :: .indent :: .indent :: conjunctionLines "" (Expr.texts names conditions) ++
      [.dedent, .dedent]

def failureLines (failure : String) : List String → List Mark
  | [] => []
  | [c] => [.line ("| " ++ c ++ " " ++ failure ++ ") \x7b")]
  | c :: cs => .line ("| " ++ c) :: failureLines failure cs

namespace Reflection

def handle : String := "_c"

def failure : String := "e"

end Reflection

open Reflection in
def Stmt.marks (names : Names) : Stmt → List Mark
  | .step s => s.marks names
  | .when condition body =>
    .line ("if (" ++ condition.text names ++ ") \x7b") :: body.flatMap (·.marks names) ++ [.close]
  | .reflective target erased args =>
    let literals := erased.map fun t => t.text names ++ ".class"
    [.line "// use reflection to call non-visible constructor",
      .line "try \x7b",
      .line (names constructor ++ "<" ++ names target ++ "> " ++ handle ++ " = " ++
        names target ++ ".class"),
      .indent, .indent,
      .line (".getDeclaredConstructor(" ++ ", ".intercalate literals ++ ");"),
      .dedent, .dedent,
      .line (handle ++ ".setAccessible(true);"),
      .call ("return " ++ handle ++ ".newInstance(") (Expr.texts names args) ");",
      .reopen ("catch (" ++ ((failures.map names).head?).getD ""),
      .indent, .indent] ++
    failureLines failure ((failures.map names).drop 1) ++
    [.dedent, .dedent,
      .line ("throw new " ++ names unchecked ++ "(" ++ failure ++ ");"),
      .close]

def Formal.text (names : Names) (f : Formal) : String :=
  ((f.marker.map fun m => "@" ++ names m ++ " ").getD "") ++ f.type.text names ++ " " ++ f.name

namespace Doc

def width : Nat := 80

def marks (d : Doc) : List Mark :=
  .line "/**" :: (Text.wrap width d.text).map (fun l => .line (" * " ++ l)) ++
    [.line " *", .line (" * @param " ++ d.param ++ " the value to set"),
      .line (" * @return " ++ d.returns), .line " */"]

end Doc

namespace Method

def head (names : Names) (m : Method) : String :=
  (if m.isPublic then "public " else "private ") ++ (if m.isStatic then "static " else "") ++
    ((m.result.map fun t => t.text names ++ " ").getD "") ++ m.name ++ "("

def marks (names : Names) (m : Method) : List Mark :=
  let formals := m.formals.map (·.text names)
  let header :=
    if m.flowing then .call (m.head names) formals ") \x7b"
    else .line (m.head names ++ ", ".intercalate formals ++ ") \x7b")
  .blank :: (m.doc.map (·.marks)).getD [] ++ m.markers.map (fun r => .line ("@" ++ names r)) ++
    header :: m.body.flatMap (·.marks names) ++ [.close]

end Method

def Field.text (names : Names) (f : Field) : String :=
  "private " ++ (if f.isFinal then "final " else "") ++ f.type.text names ++ " " ++ f.name ++
    ((f.value.map fun v => " = " ++ v.text names).getD "") ++ ";"

def fieldMarks (names : Names) (fields : List Field) : List Mark :=
  .blank :: fields.map fun f => .line (f.text names)

def NestedClass.marks (names : Names) (c : NestedClass) : List Mark :=
  .blank :: .line ("public static final class " ++ c.name ++ " \x7b") ::
    fieldMarks names c.fields ++ c.methods.flatMap (·.marks names) ++ [.close]

def Member.marks (names : Names) : Member → List Mark
  | .method m => m.marks names
  | .nested c => c.marks names

namespace SourceUnit

def marks (names : Names) (u : SourceUnit) : List Mark :=
  .line "// GENERATED FILE - DO NOT EDIT" ::
    (if u.package = "" then [] else [.line ("package " ++ u.package ++ ";")]) ++
    [.imports, .blank,
      .line ("@" ++ names u.marker ++ "(\"" ++ u.origin ++ "\")"),
      .line ("public final class " ++ u.name ++
        ((u.interface.map fun r => " implements " ++ names r).getD "") ++ " \x7b")] ++
    ((u.fields.map (fieldMarks names)).getD []) ++ u.members.flatMap (·.marks names) ++ [.close]

def imports (u : SourceUnit) (start : Imports) : Imports := start.noteAll u.uses

/-- The text of the file whose names are those of `start` and those of its references. -/
def text (u : SourceUnit) (start : Imports) : String :=
  (Sheet.putAll {} (u.marks (u.imports start).display)).finish (u.imports start)

end SourceUnit

end StagedBuilder.Java
