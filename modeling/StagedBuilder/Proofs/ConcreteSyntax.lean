import Mathlib.Data.List.Forall2
import StagedBuilder.Proofs.BlockLaws

/-!
The concrete syntax of generated files, as a relation between trees and lines that leaves open how
calls are broken. A file is one of the ways in which its tree can be written.
-/

namespace StagedBuilder

namespace Text

def IsLine (shown text : String) : Prop :=
  ∃ n, text = .ofList (.replicate n ' ') ++ shown ++ "\n"

inductive Shows : List String → String → Prop
  | nil : Shows [] ""
  | cons {shown text below : String} {lines : List String} (line : IsLine shown text)
      (rest : Shows lines below) : Shows (shown :: lines) (text ++ below)

theorem Shows.append {ls ls' : List String} {t t' : String} (h : Shows ls t) (h' : Shows ls' t') :
    Shows (ls ++ ls') (t ++ t') := by
  induction h with
  | nil => rwa [List.nil_append, String.empty_append]
  | cons line rest ih =>
    rw [List.cons_append, String.append_assoc]
    exact .cons line ih

theorem shows_line (n : Nat) (shown : String) :
    Shows [shown] (.ofList (.replicate n ' ') ++ shown ++ "\n") := by
  rw [← String.append_empty (s := .ofList (.replicate n ' ') ++ shown ++ "\n")]
  exact .cons ⟨n, rfl⟩ .nil

end Text

open Text

section InTurn

variable {α : Type} {R : α → List String → Prop} {x : α} {xs ys : List α} {ls : List String}

inductive InTurn (R : α → List String → Prop) : List α → List String → Prop
  | nil : InTurn R [] []
  | cons {x : α} {xs : List α} {ls more : List String} (first : R x ls)
      (rest : InTurn R xs more) : InTurn R (x :: xs) (ls ++ more)

@[simp] theorem inTurn_nil_iff : InTurn R [] ls ↔ ls = [] := by
  constructor
  · rintro ⟨⟩
    rfl
  · rintro rfl
    exact .nil

theorem inTurn_cons_iff :
    InTurn R (x :: xs) ls ↔ ∃ first more, ls = first ++ more ∧ R x first ∧ InTurn R xs more := by
  constructor
  · rintro ⟨⟩
    rename_i first rest
    exact ⟨_, _, rfl, first, rest⟩
  · rintro ⟨first, more, rfl, hfirst, hmore⟩
    exact .cons hfirst hmore

theorem InTurn.append {ls' : List String} (h : InTurn R xs ls) (h' : InTurn R ys ls') :
    InTurn R (xs ++ ys) (ls ++ ls') := by
  induction h with
  | nil => exact h'
  | cons first rest ih =>
    rw [List.append_assoc]
    exact .cons first ih

theorem inTurn_append_iff :
    InTurn R (xs ++ ys) ls ↔ ∃ front back, ls = front ++ back ∧ InTurn R xs front ∧
      InTurn R ys back := by
  constructor
  · intro h
    induction xs generalizing ls with
    | nil => exact ⟨[], ls, rfl, .nil, h⟩
    | cons x xs ih =>
      obtain ⟨first, more, rfl, hfirst, hmore⟩ := inTurn_cons_iff.1 h
      obtain ⟨front, back, rfl, hfront, hback⟩ := ih hmore
      exact ⟨first ++ front, back, (List.append_assoc ..).symm, .cons hfirst hfront, hback⟩
  · rintro ⟨front, back, rfl, hfront, hback⟩
    exact hfront.append hback

theorem InTurn.of_flatMap {β : Type} {S : β → List String → Prop} {f : β → List α} {bs : List β}
    (hf : ∀ b ∈ bs, ∀ ls, InTurn R (f b) ls → S b ls) (h : InTurn R (bs.flatMap f) ls) :
    InTurn S bs ls := by
  induction bs generalizing ls with
  | nil => exact inTurn_nil_iff.2 (inTurn_nil_iff.1 h)
  | cons b bs ih =>
    obtain ⟨hb, hbs⟩ := List.forall_mem_cons.1 hf
    obtain ⟨front, back, rfl, hfront, hback⟩ := inTurn_append_iff.1 h
    exact .cons (hb front hfront) (ih hbs hback)

end InTurn

inductive Listed (tail : String) : List String → List String → Prop
  | last (a : String) : Listed tail [a] [a ++ tail]
  | more {a : String} {args lines : List String} (rest : Listed tail args lines) :
      Listed tail (a :: args) ((a ++ ",") :: lines)

inductive Listing (head tail : String) : List String → List String → Prop
  | inLine (args : List String) :
      Listing head tail args [head ++ ", ".intercalate args ++ tail]
  | broken {args lines : List String} (listed : Listed tail args lines) :
      Listing head tail args (head :: lines)

inductive Mark.Lined : Mark → List String → Prop
  | line (text : String) : Lined (.line text) [text]
  | blank : Lined .blank [""]
  | indent : Lined .indent []
  | dedent : Lined .dedent []
  | close : Lined .close ["\x7d"]
  | reopen (text : String) : Lined (.reopen text) ["\x7d " ++ text]
  | imports : Lined .imports [Sheet.importsMark]
  | call {head tail : String} {args lines : List String} (listing : Listing head tail args lines) :
      Lined (.call head args tail) lines

def Mark.HasArguments : Mark → Prop
  | .call _ args _ => args ≠ []
  | _ => True

theorem Mark.hasArguments_of_inLine {m : Mark} (h : m.inLine = m) : m.HasArguments := by
  cases m with
  | call => cases h
  | _ => trivial

abbrev Lines : List Mark → List String → Prop := InTurn Mark.Lined

section Marks

variable {marks : List Mark} {ls : List String} {text : String}

theorem lined_iff {m : Mark} (hm : m.inLine = m) : m.Lined ls ↔ ls = m.shown := by
  constructor
  · rintro ⟨⟩ <;> first | rfl | cases hm
  · rintro rfl
    cases m with
    | call => cases hm
    | _ => constructor

theorem lines_cons_iff {m : Mark} (hm : m.inLine = m) :
    Lines (m :: marks) ls ↔ ∃ more, ls = m.shown ++ more ∧ Lines marks more := by
  rw [Lines, inTurn_cons_iff]
  constructor
  · rintro ⟨first, more, rfl, hfirst, h⟩
    exact ⟨more, by rw [(lined_iff hm).1 hfirst], h⟩
  · rintro ⟨more, rfl, h⟩
    exact ⟨m.shown, more, rfl, (lined_iff hm).2 rfl, h⟩

@[simp] theorem lines_line_iff :
    Lines (.line text :: marks) ls ↔ ∃ more, ls = text :: more ∧ Lines marks more :=
  lines_cons_iff rfl

@[simp] theorem lines_blank_iff :
    Lines (.blank :: marks) ls ↔ ∃ more, ls = "" :: more ∧ Lines marks more :=
  lines_cons_iff rfl

@[simp] theorem lines_close_iff :
    Lines (.close :: marks) ls ↔ ∃ more, ls = "\x7d" :: more ∧ Lines marks more :=
  lines_cons_iff rfl

@[simp] theorem lines_reopen_iff :
    Lines (.reopen text :: marks) ls ↔ ∃ more, ls = ("\x7d " ++ text) :: more ∧
      Lines marks more :=
  lines_cons_iff rfl

@[simp] theorem lines_indent_iff : Lines (.indent :: marks) ls ↔ Lines marks ls :=
  (lines_cons_iff rfl).trans (by simp [Mark.shown])

@[simp] theorem lines_dedent_iff : Lines (.dedent :: marks) ls ↔ Lines marks ls :=
  (lines_cons_iff rfl).trans (by simp [Mark.shown])

@[simp] theorem lines_call_iff {head tail : String} {args : List String} :
    Lines (.call head args tail :: marks) ls ↔ ∃ lines more, ls = lines ++ more ∧
      Listing head tail args lines ∧ Lines marks more := by
  rw [Lines, inTurn_cons_iff]
  constructor
  · rintro ⟨lines, more, rfl, ⟨⟩, h⟩
    exact ⟨lines, more, rfl, ‹_›, h⟩
  · rintro ⟨lines, more, rfl, hlisting, h⟩
    exact ⟨lines, more, rfl, .call hlisting, h⟩

theorem lines_map_line_iff {texts : List String} : Lines (texts.map .line) ls ↔ ls = texts := by
  induction texts generalizing ls with
  | nil => exact inTurn_nil_iff
  | cons text texts ih => simp [ih]

end Marks

namespace Sheet

theorem shows_sheetLine (depth : Nat) (text : String) :
    Shows [text] (line { depth } text).text := by
  have h := shows_line (depth * step) text
  rwa [← String.empty_append (s := .ofList _)] at h

theorem exists_argumentLines (s : Sheet) {tail : String} {args : List String} (hargs : args ≠ []) :
    ∃ lines added, Listed tail args lines ∧ Shows lines added ∧
      (s.argumentLines tail args).text = s.text ++ added := by
  induction args generalizing s with
  | nil => exact absurd rfl hargs
  | cons a args ih =>
    cases args with
    | nil =>
      refine ⟨_, _, .last a, shows_line s.column (a ++ tail), ?_⟩
      simp [argumentLines, line, String.append_assoc]
    | cons b args =>
      obtain ⟨lines, added, hlisted, hshows, htext⟩ := ih (s.line (a ++ ",")) (List.cons_ne_nil _ _)
      refine ⟨_, _, .more hlisted, (shows_line s.column (a ++ ",")).append hshows, ?_⟩
      rw [argumentLines_cons_cons, htext]
      simp [line, String.append_assoc]

theorem exists_listing (depth : Nat) {head tail : String} {args : List String} (hargs : args ≠ []) :
    ∃ lines, Listing head tail args lines ∧ Shows lines (call { depth } head args tail).text := by
  unfold call
  dsimp only
  split_ifs
  · exact ⟨_, .inLine args, shows_sheetLine depth _⟩
  · obtain ⟨lines, added, hlisted, hshows, htext⟩ :=
      @exists_argumentLines (line { depth } head).indent.indent tail args hargs
    refine ⟨_, .broken hlisted, ?_⟩
    rw [dedent, dedent, htext]
    exact (shows_sheetLine depth head).append hshows

theorem exists_lined (depth : Nat) {m : Mark} (hm : m.HasArguments) :
    ∃ lines, m.Lined lines ∧ Shows lines (laid depth [m]).text := by
  cases m with
  | line text => exact ⟨_, .line text, shows_sheetLine depth text⟩
  | blank => exact ⟨_, .blank, shows_line 0 ""⟩
  | indent => exact ⟨_, .indent, .nil⟩
  | dedent => exact ⟨_, .dedent, .nil⟩
  | close => exact ⟨_, .close, shows_sheetLine (depth - 1) _⟩
  | reopen text => exact ⟨_, .reopen text, shows_sheetLine (depth - 1) _⟩
  | imports => exact ⟨_, .imports, shows_sheetLine depth _⟩
  | call head args tail =>
    obtain ⟨lines, hlisting, hshows⟩ := @exists_listing depth head tail args hm
    exact ⟨lines, .call hlisting, hshows⟩

theorem exists_lines (depth : Nat) {marks : List Mark} (h : ∀ m ∈ marks, m.HasArguments) :
    ∃ ls, Lines marks ls ∧ Shows ls (laid depth marks).text := by
  induction marks generalizing depth with
  | nil => exact ⟨[], .nil, .nil⟩
  | cons m marks ih =>
    obtain ⟨hm, hmarks⟩ := List.forall_mem_cons.1 h
    obtain ⟨first, hlined, hfirst⟩ := exists_lined depth hm
    obtain ⟨more, hmore, hrest⟩ := ih (laid depth [m]).depth hmarks
    refine ⟨first ++ more, .cons hlined hmore, ?_⟩
    rw [text_laid_cons]
    exact hfirst.append hrest

end Sheet

namespace Java

section Written

variable (names : Names)

inductive TypeRef.Written : TypeRef → String → Prop
  | reference (text : String) : Written (.reference text) (names text)
  | expr (type : TypeExpr) : Written (.expr type) (type.renderWith names)
  | written (text : String) : Written (.written text) text
  | collector {next : TypeRef} {t : String} (builder : String) (elements : List TypeExpr)
      (reached : next.Written t) :
      Written (.collector builder elements next)
        (names builder ++ "<" ++ ", ".intercalate (elements.map (·.renderWith names)) ++ ", " ++
          t ++ ">")

inductive Callee.Written : Callee → String → Prop
  | constructor {type : TypeRef} {t : String} (typed : type.Written names t) :
      Written (.constructor type) ("new " ++ t)
  | inferred (reference : String) :
      Written (.inferred reference) ("new " ++ names reference ++ "<>")
  | implicit (name : String) : Written (.method .implicit name) name
  | value (receiver name : String) :
      Written (.method (.value receiver) name) (receiver ++ "." ++ name)
  | static (reference name : String) :
      Written (.method (.static reference) name) (names reference ++ "." ++ name)

mutual

inductive Expr.Written : Expr → String → Prop
  | this : Written .this "this"
  | null : Written .null "null"
  | holds : Written (.truth true) "true"
  | fails : Written (.truth false) "false"
  | name (text : String) : Written (.name text) text
  | quoted (text : String) : Written (.quoted text) ("\"" ++ text ++ "\"")
  | field {owner : Expr} {o : String} (name : String) (owned : Expr.Written owner o) :
      Written (.field owner name) (o ++ "." ++ name)
  | call {callee : Callee} {args : List Expr} {c : String} {ts : List String}
      (called : callee.Written names c) (given : Expr.AllWritten args ts) :
      Written (.call callee args) (c ++ "(" ++ ", ".intercalate ts ++ ")")
  | ifNull {subject whenNull otherwise : Expr} {s n o : String} (asked : Expr.Written subject s)
      (null : Expr.Written whenNull n) (other : Expr.Written otherwise o) :
      Written (.ifNull subject whenNull otherwise) (s ++ " == null ? " ++ n ++ " : " ++ o)
  | supplier {value : Expr} {v : String} (supplied : Expr.Written value v) :
      Written (.supplier value) ("() -> " ++ v)
  | cast {value : Expr} {v : String} (type : String) (seen : Expr.Written value v) :
      Written (.cast type value) ("(" ++ type ++ ") " ++ v)
  | binary {left right : Expr} {l r : String} (operator : String) (first : Expr.Written left l)
      (second : Expr.Written right r) :
      Written (.binary operator left right) (l ++ " " ++ operator ++ " " ++ r)

inductive Expr.AllWritten : List Expr → List String → Prop
  | nil : AllWritten [] []
  | cons {e : Expr} {es : List Expr} {t : String} {ts : List String} (first : Expr.Written e t)
      (rest : Expr.AllWritten es ts) : AllWritten (e :: es) (t :: ts)

end

inductive Conjoined : String → List String → List String → Prop
  | last (lead c : String) : Conjoined lead [c] [lead ++ c ++ ";"]
  | more {lead c : String} {cs lines : List String} (rest : Conjoined "&& " cs lines) :
      Conjoined lead (c :: cs) ((lead ++ c) :: lines)

inductive Step.Written : Step → List String → Prop
  | comment (text : String) : Written (.comment text) ["// " ++ text]
  | nullChecks (checker : String) (checked : List String) :
      Written (.nullChecks checker checked)
        (checked.map fun n => names checker ++ ".checkNotNull(" ++ n ++ ", \"" ++ n ++ "\");")
  | assign {owner value : Expr} {o v : String} (field : String) (owned : owner.Written names o)
      (given : value.Written names v) :
      Written (.assign owner field value) [o ++ "." ++ field ++ " = " ++ v ++ ";"]
  | declare {type : TypeRef} {value : Expr} {t v : String} (name : String)
      (typed : type.Written names t) (given : value.Written names v) :
      Written (.declare type name value) [t ++ " " ++ name ++ " = " ++ v ++ ";"]
  | eval {value : Expr} {v : String} (evaluated : value.Written names v) :
      Written (.eval value) [v ++ ";"]
  | ret {value : Expr} {v : String} (returned : value.Written names v) :
      Written (.ret value) ["return " ++ v ++ ";"]
  | retCall {callee : Callee} {args : List Expr} {c : String} {ts lines : List String}
      (called : callee.Written names c) (given : Expr.AllWritten names args ts)
      (listing : Listing ("return " ++ c ++ "(") ");" ts lines) :
      Written (.retCall callee args) lines
  | retOne {condition : Expr} {c : String} (asked : condition.Written names c) :
      Written (.retAll [condition]) ["return " ++ c ++ ";"]
  | retAll {conditions : List Expr} {cs lines : List String}
      (asked : Expr.AllWritten names conditions cs) (conjoined : Conjoined "" cs lines) :
      Written (.retAll conditions) ("return" :: lines)

inductive Stmt.Written : Stmt → List String → Prop
  | step {s : Step} {lines : List String} (once : s.Written names lines) :
      Written (.step s) lines
  | when {condition : Expr} {body : List Step} {c : String} {lines : List String}
      (asked : condition.Written names c) (guarded : InTurn (Step.Written names) body lines) :
      Written (.when condition body) (("if (" ++ c ++ ") \x7b") :: lines ++ ["\x7d"])
  | reflective {target : String} {erased : List TypeRef} {args : List Expr}
      {literals ts lines : List String}
      (typed : List.Forall₂ (TypeRef.Written names) erased literals)
      (given : Expr.AllWritten names args ts)
      (listing : Listing "return _c.newInstance(" ");" ts lines) :
      Written (.reflective target erased args)
        (["// use reflection to call non-visible constructor", "try \x7b",
          names "java.lang.reflect.Constructor" ++ "<" ++ names target ++ "> _c = " ++
            names target ++ ".class",
          ".getDeclaredConstructor(" ++ ", ".intercalate (literals.map (· ++ ".class")) ++ ");",
          "_c.setAccessible(true);"] ++ lines ++
        ["\x7d catch (" ++ names "java.lang.reflect.InvocationTargetException",
          "| " ++ names "java.lang.NoSuchMethodException",
          "| " ++ names "java.lang.InstantiationException",
          "| " ++ names "java.lang.IllegalAccessException" ++ " e) \x7b",
          "throw new " ++ names "java.lang.RuntimeException" ++ "(e);", "\x7d"])

inductive Formal.Written : Formal → String → Prop
  | plain {type : TypeRef} {t : String} (name : String) (typed : type.Written names t) :
      Written ⟨none, type, name⟩ (t ++ " " ++ name)
  | marked {type : TypeRef} {t : String} (marker name : String) (typed : type.Written names t) :
      Written ⟨some marker, type, name⟩ ("@" ++ names marker ++ " " ++ t ++ " " ++ name)

def Doc.lines (d : Doc) : List String :=
  "/**" :: (Text.wrap 80 d.text).map (" * " ++ ·) ++
    [" *", " * @param " ++ d.param ++ " the value to set", " * @return " ++ d.returns, " */"]

def Method.modifiers (m : Method) : String :=
  match m.isPublic, m.isStatic with
  | true, false => "public "
  | true, true => "public static "
  | false, false => "private "
  | false, true => "private static "

inductive Method.Heads (m : Method) : String → Prop
  | constructor (hresult : m.result = none) : Heads m (m.modifiers ++ m.name ++ "(")
  | method {type : TypeRef} {t : String} (hresult : m.result = some type)
      (typed : type.Written names t) : Heads m (m.modifiers ++ t ++ " " ++ m.name ++ "(")

inductive Method.Written (m : Method) : List String → Prop
  | intro {head : String} {formals opening body : List String} (heads : m.Heads names head)
      (takes : List.Forall₂ (Formal.Written names) m.formals formals)
      (listing : Listing head ") \x7b" formals opening)
      (does : InTurn (Stmt.Written names) m.body body) :
      Written m ("" :: (m.doc.map Doc.lines).getD [] ++ m.markers.map (fun r => "@" ++ names r) ++
        opening ++ body ++ ["\x7d"])

def Field.modifiers (f : Field) : String := if f.isFinal then "private final " else "private "

inductive Field.Written (f : Field) : List String → Prop
  | unset {t : String} (typed : f.type.Written names t) (hvalue : f.value = none) :
      Written f [f.modifiers ++ t ++ " " ++ f.name ++ ";"]
  | set {value : Expr} {t v : String} (typed : f.type.Written names t)
      (hvalue : f.value = some value) (given : value.Written names v) :
      Written f [f.modifiers ++ t ++ " " ++ f.name ++ " = " ++ v ++ ";"]

inductive NestedClass.Written (c : NestedClass) : List String → Prop
  | intro {fields methods : List String} (holds : InTurn (Field.Written names) c.fields fields)
      (does : InTurn (Method.Written names) c.methods methods) :
      Written c ("" :: ("public static final class " ++ c.name ++ " \x7b") :: "" :: fields ++
        methods ++ ["\x7d"])

inductive Member.Written : Member → List String → Prop
  | method {m : Method} {lines : List String} (does : m.Written names lines) :
      Written (.method m) lines
  | nested {c : NestedClass} {lines : List String} (nests : c.Written names lines) :
      Written (.nested c) lines

inductive SourceUnit.HasFields : Option (List Field) → List String → Prop
  | none : HasFields none []
  | some {fields : List Field} {lines : List String}
      (holds : InTurn (Field.Written names) fields lines) : HasFields (some fields) ("" :: lines)

def SourceUnit.implementing (u : SourceUnit) : String :=
  match u.interface with
  | none => ""
  | some r => " implements " ++ names r

inductive SourceUnit.Written (u : SourceUnit) : List String → Prop
  | intro {fields members : List String} (holds : SourceUnit.HasFields names u.fields fields)
      (has : InTurn (Member.Written names) u.members members) :
      Written u (["", "@" ++ names u.marker ++ "(\"" ++ u.origin ++ "\")",
        "public final class " ++ u.name ++ u.implementing names ++ " \x7b"] ++ fields ++ members ++
          ["\x7d"])

end Written

end Java

end StagedBuilder
