import StagedBuilder.Proofs.MirrorLaws
import StagedBuilder.Proofs.OwnNames
import StagedBuilder.Proofs.UseLaws

/-!
The import block of a file. It stands where its place was kept, below the head of the file, and is
that of all references of the file, also of those that come into use further down; what is written
further down stays as it is, even if it looks like a place that is kept.
-/

namespace StagedBuilder

namespace Text

variable {pat l s : List Char}

theorem cut?_here (pat s : List Char) : cut? pat (pat ++ s) = some ([], s) := by
  cases htext : pat ++ s with
  | nil =>
    obtain ⟨rfl, rfl⟩ := List.append_eq_nil_iff.1 htext
    rfl
  | cons c cs =>
    have hhere : pat.isPrefixOf (c :: cs) = true :=
      List.isPrefixOf_iff_prefix.2 (htext ▸ List.prefix_append pat s)
    rw [cut?, if_pos hhere, ← htext, List.drop_left]

theorem not_prefix_line (hpat : '\n' ∉ pat) (hl : '\n' ∉ l) (hend : ¬ pat <:+ l) :
    ¬ (pat ++ ['\n']).isPrefixOf (l ++ '\n' :: s) = true := by
  rw [List.isPrefixOf_iff_prefix]
  rintro ⟨rest, hrest⟩
  apply hend
  rw [List.append_assoc, List.singleton_append] at hrest
  rcases List.append_eq_append_iff.1 hrest with ⟨mid, rfl, hmid⟩ | ⟨mid, rfl, hmid⟩ <;>
    cases mid with
    | nil => simp
    | cons c mid =>
      obtain ⟨rfl, -⟩ := List.cons.inj hmid
      simp at hl hpat

theorem cut?_below_line (hpat : '\n' ∉ pat) (hl : '\n' ∉ l) (hend : ¬ pat <:+ l) :
    cut? (pat ++ ['\n']) (l ++ '\n' :: s) =
      (cut? (pat ++ ['\n']) s).map fun (before, after) => (l ++ '\n' :: before, after) := by
  induction l with
  | nil => exact if_neg (not_prefix_line hpat hl hend)
  | cons c l ih =>
    have hlater := ih (fun h => hl (List.mem_cons_of_mem c h))
      (fun h => hend (h.trans (List.suffix_cons c l)))
    have hhere := not_prefix_line (s := s) hpat hl hend
    rw [List.cons_append] at hhere ⊢
    rw [cut?, if_neg hhere, hlater, Option.map_map]
    rfl

theorem cut?_below_lines {ls : List (List Char)} (hpat : '\n' ∉ pat)
    (hfeed : ∀ l ∈ ls, '\n' ∉ l) (hend : ∀ l ∈ ls, ¬ pat <:+ l) :
    cut? (pat ++ ['\n']) (ls.flatMap (· ++ ['\n']) ++ (pat ++ ['\n'] ++ s)) =
      some (ls.flatMap (· ++ ['\n']), s) := by
  induction ls with
  | nil => exact cut?_here (pat ++ ['\n']) s
  | cons l ls ih =>
    obtain ⟨hl, hfeed⟩ := List.forall_mem_cons.1 hfeed
    obtain ⟨hlend, hend⟩ := List.forall_mem_cons.1 hend
    rw [List.flatMap_cons, List.append_assoc, List.append_assoc, List.singleton_append,
      cut?_below_line hpat hl hlend, ih hfeed hend, List.append_assoc]
    rfl

end Text

open Text

def ended (lines : List String) : String := String.join (lines.map (· ++ "\n"))

theorem ended_cons (l : String) (ls : List String) : ended (l :: ls) = l ++ "\n" ++ ended ls :=
  String.join_cons

theorem ended_append (ls ls' : List String) : ended (ls ++ ls') = ended ls ++ ended ls' := by
  induction ls with
  | nil => exact String.empty_append.symm
  | cons l ls ih => simp only [List.cons_append, ended_cons, ih, String.append_assoc]

theorem toList_ended (ls : List String) :
    (ended ls).toList = (ls.map String.toList).flatMap (· ++ ['\n']) := by
  induction ls with
  | nil => rfl
  | cons l ls ih =>
    rw [ended_cons, String.toList_append, String.toList_append, ih, List.map_cons,
      List.flatMap_cons]
    rfl

namespace Imports

def blockLines (i : Imports) : List String :=
  if i.imported = [] then [] else "" :: i.imported.map fun q => "import " ++ q ++ ";"

theorem code_eq (i : Imports) : i.code = ended (i.imported.map fun q => "import " ++ q ++ ";") := by
  rw [code, ended, List.map_map]
  refine congrArg String.join (List.map_congr_left fun q _ => ?_)
  have hend : "import " ++ q ++ (";" ++ "\n") = "import " ++ q ++ ";" ++ "\n" :=
    String.append_assoc.symm
  exact hend

theorem ended_blockLines (i : Imports) :
    ended i.blockLines = if i.code = "" then "" else "\n" ++ i.code := by
  rw [blockLines, code_eq]
  cases i.imported with
  | nil => rfl
  | cons q qs =>
    rw [if_neg (List.cons_ne_nil q qs), if_neg, ended_cons, String.empty_append]
    intro hempty
    simpa [ended_cons] using congrArg String.toList hempty

structure Covers (i : Imports) (q : String) : Prop where
  entered : (q, i.nameOf q) ∈ i.entries
  found : i.nameOf q = q ∨ i.nameOf q = ClassName.simple q ∧
    (q ∈ i.imported ∨ ClassName.package q = i.package ∨ ClassName.package q = "java.lang")

theorem Coherent.covers_of_mem {i : Imports} (h : Coherent i) {q name : String}
    (hentry : (q, name) ∈ i.entries) : i.Covers q := by
  have hname : i.nameOf q = name := h.nameOf_of_mem hentry
  refine ⟨hname ▸ hentry, ?_⟩
  by_cases hfull : i.nameOf q = q
  · exact .inl hfull
  · refine .inr ⟨h.nameOf_eq_simple hfull, ?_⟩
    rw [mem_imported h]
    tauto

theorem covers_of_use {start : Imports} (hstart : Coherent start) {references : List String}
    {r : String} (hr : r ∈ references) (hdotted : isDotted (Reference.ofText r).className = true) :
    (start.noteAll references).Covers (Reference.ofText r).className := by
  have huse : NameEvent.use (Reference.ofText r).className ∈
      references.map NameEvent.ofReference :=
    List.mem_map_of_mem hr
  rw [noteAll_eq]
  obtain ⟨name, hname⟩ :=
    Option.isSome_iff_exists.1 ((isSome_lookup_applyAll _).2 (.inr ⟨huse, hdotted⟩))
  exact (hstart.applyAll _).covers_of_mem (mem_of_lookup hname)

end Imports

namespace Sheet

theorem laid_lines {ls : List String} (hopened : ∀ l ∈ ls, opened l = 0) :
    laid 0 (ls.map .line) = ⟨0, ended ls⟩ := by
  induction ls with
  | nil => rfl
  | cons l ls ih =>
    obtain ⟨hl, hls⟩ := List.forall_mem_cons.1 hopened
    rw [List.map_cons, laid_line, hl, ih hls, under, ended_cons, Nat.zero_mul]
    rfl

theorem laid_below_lines {ls : List String} (hopened : ∀ l ∈ ls, opened l = 0)
    (marks : List Mark) :
    laid 0 (ls.map .line ++ .imports :: marks) =
      (laid 0 marks).under (ended (ls ++ [importsMark])) := by
  have hlines : laid 0 ((ls ++ [importsMark]).map .line) = ⟨0, ended (ls ++ [importsMark])⟩ :=
    laid_lines (List.forall_mem_append.2 ⟨hopened, by decide⟩)
  calc
    laid 0 (ls.map .line ++ .imports :: marks) =
        laid 0 ((ls ++ [importsMark]).map .line ++ marks) := by
      rw [List.map_append, List.append_assoc, laid, laid, putAll, putAll, List.foldl_append,
        List.foldl_append]
      rfl
    _ = (laid 0 marks).under (ended (ls ++ [importsMark])) := by rw [laid_append, hlines]

theorem finish_below_lines {ls : List String} (hfeed : ∀ l ∈ ls, '\n' ∉ l.toList)
    (hend : ∀ l ∈ ls, ¬ importsMark.toList <:+ l.toList) (s : Sheet) (i : Imports) :
    (s.under (ended (ls ++ [importsMark]))).finish i = ended (ls ++ i.blockLines) ++ s.text := by
  have hplace : (ended [importsMark]).toList = importsMark.toList ++ ['\n'] := toList_ended _
  have hmark : '\n' ∉ importsMark.toList := by decide
  have hcut : cut? _ ((ls.map String.toList).flatMap (· ++ ['\n']) ++
      (importsMark.toList ++ ['\n'] ++ s.text.toList)) = some (_, s.text.toList) :=
    cut?_below_lines hmark (by simpa using hfeed) (by simpa using hend)
  have htext : (ended (ls ++ [importsMark]) ++ s.text).toList =
      (ls.map String.toList).flatMap (· ++ ['\n']) ++
        (importsMark.toList ++ ['\n'] ++ s.text.toList) := by
    rw [ended_append, String.toList_append, String.toList_append, hplace, toList_ended,
      List.append_assoc]
  have hsought : (importsMark ++ "\n").toList = importsMark.toList ++ ['\n'] := rfl
  apply String.toList_injective
  rw [finish, under, ← i.ended_blockLines, String.toList_ofList, htext, hsought, replaceFirst,
    hcut]
  simp only [ended_append, String.toList_append, toList_ended]

end Sheet

namespace Java.SourceUnit

variable (u : SourceUnit) (start : Imports) (names : Names)

def headLines : List String :=
  "// GENERATED FILE - DO NOT EDIT" ::
    if u.package = "" then [] else ["package " ++ u.package ++ ";"]

def body : List Mark :=
  [.blank, .line ("@" ++ names u.marker ++ "(\"" ++ u.origin ++ "\")"),
    .line ("public final class " ++ u.name ++
      ((u.interface.map fun r => " implements " ++ names r).getD "") ++ " \x7b")] ++
    ((u.fields.map (fieldMarks names)).getD []) ++ u.members.flatMap (·.marks names) ++ [.close]

theorem marks_eq_body : u.marks names = u.headLines.map .line ++ .imports :: u.body names := by
  unfold marks headLines body
  split_ifs <;> simp

/-- The names are those that the references get in exchange, each when it comes into use. -/
def NamedAtUse : Prop :=
  ∀ before r later, u.uses = before ++ r :: later →
    names r = ((start.noteAll before).register r).1

theorem namedAtUse_display : u.NamedAtUse start (u.imports start).display :=
  fun _ _ _ h => (Builder.register_eq_display h).symm

variable {u start names}

theorem NamedAtUse.marks_eq (h : u.NamedAtUse start names) :
    u.marks names = u.marks (u.imports start).display := by
  apply u.marks_congr
  intro r hr
  obtain ⟨before, later, huses⟩ := List.append_of_mem hr
  rw [h before r later huses, namedAtUse_display u start before r later huses]

theorem of_mem_headLines {l : String} (hl : l ∈ u.headLines) :
    l = "// GENERATED FILE - DO NOT EDIT" ∨ l = "package " ++ u.package ++ ";" := by
  refine (List.mem_cons.1 hl).imp_right fun hl => ?_
  split_ifs at hl
  · cases hl
  · exact List.mem_singleton.1 hl

theorem opened_headLine {l : String} (hl : l ∈ u.headLines) : Sheet.opened l = 0 := by
  rcases of_mem_headLines hl with rfl | rfl
  · decide
  · exact Sheet.opened_append _ (by decide)

theorem feed_not_mem_headLine (hpackage : '\n' ∉ u.package.toList) {l : String}
    (hl : l ∈ u.headLines) : '\n' ∉ l.toList := by
  rcases of_mem_headLines hl with rfl | rfl
  · decide
  · simpa using hpackage

theorem not_suffix_headLine {l : String} (hl : l ∈ u.headLines) :
    ¬ Sheet.importsMark.toList <:+ l.toList := by
  rcases of_mem_headLines hl with rfl | rfl
  · decide
  · rintro ⟨front, hfront⟩
    have hlast := congrArg List.getLast? hfront
    rw [String.toList_append, List.getLast?_append, List.getLast?_append] at hlast
    exact absurd (Option.some.inj hlast) (by decide)

theorem text_eq_below (hpackage : '\n' ∉ u.package.toList) :
    u.text start = ended (u.headLines ++ (u.imports start).blockLines) ++
      (Sheet.laid 0 (u.body (u.imports start).display)).text := by
  let names := (u.imports start).display
  have hsheet : Sheet.laid 0 (u.marks names) =
      (Sheet.laid 0 (u.body names)).under (ended (u.headLines ++ [Sheet.importsMark])) := by
    rw [marks_eq_body]
    exact Sheet.laid_below_lines (fun _ => opened_headLine) (u.body names)
  calc
    u.text start = (Sheet.laid 0 (u.marks names)).finish (u.imports start) := rfl
    _ = _ := by
      rw [hsheet]
      exact Sheet.finish_below_lines (fun _ => feed_not_mem_headLine hpackage)
        (fun _ => not_suffix_headLine) _ _

/--
The file is its head, the import block that there is once all of its references are in use, and what
is written below it, word for word, with the names that the references got when they came into use.
Each of their classes is covered by the block.
-/
structure Completes (u : SourceUnit) (start : Imports) (text : String) : Prop where
  named : u.NamedAtUse start (u.imports start).display
  marks : ∀ names, u.marks names = u.headLines.map .line ++ .imports :: u.body names
  text : ∀ names, u.NamedAtUse start names →
    text = ended (u.headLines ++ (u.imports start).blockLines) ++
      (Sheet.laid 0 (u.body names)).text
  covered : ∀ r ∈ u.uses, Imports.isDotted (Reference.ofText r).className = true →
    (u.imports start).Covers (Reference.ofText r).className

theorem completes_text (hstart : Imports.Coherent start) (hpackage : '\n' ∉ u.package.toList) :
    u.Completes start (u.text start) where
  named := namedAtUse_display u start
  marks := marks_eq_body u
  text names h := by
    have hbody : u.body names = u.body (u.imports start).display := by
      have hmarks := h.marks_eq
      rw [marks_eq_body, marks_eq_body] at hmarks
      exact List.tail_eq_of_cons_eq (List.append_cancel_left hmarks)
    rw [hbody]
    exact text_eq_below hpackage
  covered _ hr hdotted := Imports.covers_of_use hstart hr hdotted

end Java.SourceUnit

theorem ClassName.feed_not_mem_package {name : String} (h : '\n' ∉ name.toList) :
    '\n' ∉ (package name).toList := by
  rw [package, String.toList_ofList, List.mem_reverse]
  intro hmem
  have hmem := List.mem_of_mem_drop hmem
  exact h (List.mem_reverse.1 ((List.dropWhile_suffix _).subset hmem))

/--
In every file that is generated the imports fill the place that was kept for them and no other, as
long as the name of its class is on one line: whatever the texts of the file are, all that is
written below the imports stays as it is.
-/
theorem imports_fill_their_place (s : SupportClasses) :
    (∀ (b : Builder) (text : String), b.source s = .ok text → '\n' ∉ b.name.toList →
      (b.unit s).Completes b.ownNames text) ∧
    ∀ (i : Implementation) (text : String), i.source s = .ok text → '\n' ∉ i.name.toList →
      (i.unit s).Completes (.ofOwner i.name) text := by
  constructor
  · intro b text haccepted hname
    rw [(Builder.of_source_eq_ok haccepted).2]
    exact Java.SourceUnit.completes_text Builder.coherent_ownNames
      (ClassName.feed_not_mem_package hname)
  · intro i text haccepted hname
    rw [(Implementation.of_source_eq_ok haccepted).2]
    exact Java.SourceUnit.completes_text (Imports.Coherent.ofOwner i.name)
      (ClassName.feed_not_mem_package hname)

section Kite

def kite : Builder where
  target := "me.Kite"
  name := "me.<<IMPORTS_HERE>>.KiteBuilder"
  params := [
    { name := "tails", type := .parsed (.node "java.util.List" [.leaf "me.yarn.Tail"]),
      doc := some "<<IMPORTS_HERE>>\n\n<<IMPORTS_HERE>>\n" },
    { name := "span", type := .verbatim "<<IMPORTS_HERE>>", acceptsNull := true }]
  construction := .direct

def kiteClass : Implementation where
  interface := "me.Kite"
  name := "me.<<IMPORTS_HERE>>.KiteImpl"
  params := kite.params

def kiteSupport : SupportClasses := { generator := "<<IMPORTS_HERE>>" }

theorem kite_files_complete :
    (∃ text, kite.source kiteSupport = .ok text ∧ '\n' ∉ kite.name.toList ∧
      (kite.unit kiteSupport).Completes kite.ownNames text) ∧
    ∃ text, kiteClass.source kiteSupport = .ok text ∧ '\n' ∉ kiteClass.name.toList ∧
      (kiteClass.unit kiteSupport).Completes (.ofOwner kiteClass.name) text :=
  ⟨⟨_, rfl, by decide, (imports_fill_their_place kiteSupport).1 kite _ rfl (by decide)⟩,
    _, rfl, by decide, (imports_fill_their_place kiteSupport).2 kiteClass _ rfl (by decide)⟩

end Kite

end StagedBuilder
