import StagedBuilder.Proofs.LayoutLaws
import StagedBuilder.Proofs.LiteralLaws
import StagedBuilder.Proofs.PassageLaws
import StagedBuilder.Proofs.WritingLaws

namespace StagedBuilder

namespace Sheet

theorem depth_line_append (s : Sheet) (text : String) {tail : String} (htail : tail ≠ "")
    (hopened : opened tail = 0) : (s.line (text ++ tail)).depth = s.depth := by
  rw [depth_line, opened_append _ htail, hopened, Nat.add_zero]

theorem text_line_zero (above text : String) :
    (line { text := above } text).text = above ++ text ++ "\n" :=
  congrArg (· ++ text ++ "\n") String.append_empty

theorem exists_text_line (text : String) (more : List Mark) :
    ∃ below, (laid 0 (.line text :: more)).text = text ++ below := by
  refine ⟨"\n" ++ (laid (laid 0 [.line text]).depth more).text, ?_⟩
  have hline : (laid 0 [.line text]).text = text ++ "\n" :=
    (text_line_zero "" text).trans (by rw [String.empty_append])
  rw [← List.singleton_append, laid_append, under, hline, String.append_assoc]

end Sheet

namespace Java.SourceUnit

def heading (u : SourceUnit) : List Mark :=
  .line "// GENERATED FILE - DO NOT EDIT" ::
    (if u.package = "" then [] else [.line ("package " ++ u.package ++ ";")]) ++ [.imports]

def quoted (u : SourceUnit) : String := "\"" ++ u.origin ++ "\""

def annotation (names : Names) (u : SourceUnit) : String :=
  "@" ++ names u.marker ++ "(" ++ u.quoted ++ ")"

/-- A file up to the name of its class, if `argument` is what its annotation takes. -/
def opening (u : SourceUnit) (start : Imports) (argument : String) : String :=
  (Sheet.laid 0 u.heading).finish (u.imports start) ++ "\n@" ++
    (u.imports start).display u.marker ++ "(" ++ argument ++ ")\npublic final class " ++ u.name

variable (u : SourceUnit) (names : Names)

theorem depth_heading : (Sheet.laid 0 u.heading).depth = 0 := by
  unfold heading
  split_ifs
  · rfl
  · exact Sheet.depth_line_append _ _ (by decide) (by decide)

theorem exists_marks_eq : ∃ tail more, u.marks names =
    u.heading ++ ([.blank, .line (u.annotation names)] ++
      .line ("public final class " ++ u.name ++ tail) :: more) := by
  refine ⟨((u.interface.map fun r => " implements " ++ names r).getD "") ++ " \x7b",
    ((u.fields.map (fieldMarks names)).getD []) ++ u.members.flatMap (·.marks names) ++ [.close],
    ?_⟩
  simp only [marks, heading, annotation, quoted, List.cons_append, List.append_assoc,
    List.nil_append, String.append_assoc]
  rfl

theorem exists_text_eq_opening (start : Imports) :
    ∃ below, u.text start = u.opening start u.quoted ++ below := by
  let names := (u.imports start).display
  obtain ⟨tail, more, hmarks⟩ := u.exists_marks_eq names
  have himports : (Sheet.importsMark ++ "\n").toList <:+: (Sheet.laid 0 u.heading).text.toList :=
    Sheet.imports_infix_laid 0 (.line "// GENERATED FILE - DO NOT EDIT" :: _) []
  have hdepth : (Sheet.laid 0 [.blank, .line (u.annotation names)]).depth = 0 :=
    Sheet.depth_line_append _ _ (by decide) (by decide)
  have hannotation : (Sheet.laid 0 [.blank, .line (u.annotation names)]).text =
      "\n" ++ u.annotation names ++ "\n" :=
    Sheet.text_line_zero "\n" _
  obtain ⟨below, hclass⟩ := Sheet.exists_text_line ("public final class " ++ u.name ++ tail) more
  refine ⟨tail ++ below, ?_⟩
  calc
    u.text start = (Sheet.laid 0 (u.marks names)).finish (u.imports start) := rfl
    _ = (Sheet.laid 0 u.heading).finish (u.imports start) ++
          ("\n" ++ u.annotation names ++ "\n" ++
            ("public final class " ++ u.name ++ tail ++ below)) := by
      rw [hmarks, Sheet.laid_append, depth_heading, Sheet.finish_under himports,
        Sheet.laid_append, hdepth, Sheet.under, hannotation, hclass]
    _ = u.opening start u.quoted ++ (tail ++ below) := by
      simp only [opening, annotation, String.append_assoc]
      rfl

end Java.SourceUnit

open Java Java.Literal

def Plan.units (s : SupportClasses) (p : Plan) : List (SourceUnit × Imports) :=
  (p.builder.unit s, p.builder.ownNames) ::
    (p.implementation?.map fun i => (i.unit s, .ofOwner i.name)).toList

section Manifests

variable {s : SupportClasses} {m : Manifest} {g : String} {p : Plan} {plans : List Plan}
  {f : SourceFile} {files : List SourceFile} {u : SourceUnit} {start : Imports}

theorem SupportClasses.generator_ofManifest (h : m.support.generator = some g) :
    (ofManifest m).generator = g := by
  rw [ofManifest, override, h, Option.getD_some]

theorem Plan.origin_of_mem_units (h : (u, start) ∈ p.units s) : u.origin = s.generator := by
  rcases List.mem_cons.1 h with h | h
  · exact congrArg (·.1.origin) h
  · obtain ⟨i, -, hi⟩ := Option.map_eq_some_iff.1 (Option.mem_toList.1 h)
    exact (congrArg (·.1.origin) hi).symm

theorem Plan.exists_unit_of_files (h : p.files s = .ok files) (hf : f ∈ files) :
    ∃ u start, (u, start) ∈ p.units s ∧ f.content = u.text start := by
  rw [files_eq] at h
  obtain ⟨-, -, rfl⟩ := map_eq_ok_iff.1 h
  rcases List.mem_cons.1 hf with rfl | hf
  · exact ⟨_, _, List.mem_cons_self, rfl⟩
  · obtain ⟨i, hi, rfl⟩ := Option.map_eq_some_iff.1 (Option.mem_toList.1 hf)
    refine ⟨i.unit s, .ofOwner i.name, List.mem_cons_of_mem _ ?_, rfl⟩
    rw [hi]
    exact List.mem_singleton_self _

theorem exists_unit_of_synthesize (h : synthesize s plans = .ok files) (hf : f ∈ files) :
    ∃ p ∈ plans, ∃ u start, (u, start) ∈ p.units s ∧ f.content = u.text start := by
  rw [synthesize_eq] at h
  obtain ⟨fss, hfss, rfl⟩ := map_eq_ok_iff.1 h
  rw [mapM_eq_ok_iff] at hfss
  clear h
  induction hfss with
  | nil => cases hf
  | @cons p fs _ _ hp _ ih =>
    rw [List.flatten_cons, List.mem_append] at hf
    rcases hf with hf | hf
    · exact ⟨p, List.mem_cons_self, Plan.exists_unit_of_files (mapError_eq_ok_iff.1 hp) hf⟩
    · obtain ⟨q, hq, hunit⟩ := ih hf
      exact ⟨q, List.mem_cons_of_mem _ hq, hunit⟩

theorem exists_opening_of_synthesize (hgenerator : m.support.generator = some g)
    (hfiles : synthesize (.ofManifest m) plans = .ok files) (hf : f ∈ files) :
    ∃ p ∈ plans, ∃ u start, (u, start) ∈ p.units (.ofManifest m) ∧ f.content = u.text start ∧
      ∃ below, f.content = u.opening start ("\"" ++ g ++ "\"") ++ below := by
  obtain ⟨p, hp, u, start, hu, htext⟩ := exists_unit_of_synthesize hfiles hf
  obtain ⟨below, hbelow⟩ := u.exists_text_eq_opening start
  have hquoted : u.quoted = "\"" ++ g ++ "\"" := by
    rw [SourceUnit.quoted, Plan.origin_of_mem_units hu,
      SupportClasses.generator_ofManifest hgenerator]
  rw [hquoted] at hbelow
  exact ⟨p, hp, u, start, hu, htext, below, htext.trans hbelow⟩

/--
The argument of the annotation is a literal for the configured text just in case there is no quote,
backslash or line break in it: none of them is escaped.
-/
theorem origin_literal_iff (hgenerator : m.support.generator = some g)
    (hfiles : synthesize (.ofManifest m) plans = .ok files) :
    (∀ f ∈ files, ∃ p ∈ plans, ∃ u start, (u, start) ∈ p.units (.ofManifest m) ∧
      f.content = u.text start ∧
      ∃ below, f.content = u.opening start ("\"" ++ g ++ "\"") ++ below) ∧
    (value? ("\"" ++ g ++ "\"") = some (valueOf g) ↔ StandsForItself g) :=
  ⟨fun _ => exists_opening_of_synthesize hgenerator hfiles, value?_eq_valueOf_iff⟩

end Manifests

section Shapes

def shapesBy (g : String) : Manifest := { shapes with support := { generator := some g } }

theorem plans_shapesBy (g : String) : (shapesBy g).plans = .ok [shapePlan] := plans_shapes

theorem exists_synthesize_shapesBy (g : String) :
    ∃ files, synthesize (.ofManifest (shapesBy g)) [shapePlan] = .ok files ∧
      files.map (·.className) = ["me.builder.ShapeBuilder", "me.builder.ShapeImpl"] := by
  have hcheck : Parameter.checkAll shapePlan.builder.params = .ok () := by decide
  rw [synthesize, Plan.files_eq, hcheck]
  exact ⟨_, rfl, rfl⟩

theorem shapes_by_processor :
    (shapesBy "me:shapes").plans = .ok [shapePlan] ∧
    ∃ files, synthesize (.ofManifest (shapesBy "me:shapes")) [shapePlan] = .ok files ∧
      files.map (·.className) = ["me.builder.ShapeBuilder", "me.builder.ShapeImpl"] ∧
      (∀ f ∈ files, ∃ p ∈ [shapePlan], ∃ u start,
        (u, start) ∈ p.units (.ofManifest (shapesBy "me:shapes")) ∧ f.content = u.text start ∧
        ∃ below, f.content = u.opening start "\"me:shapes\"" ++ below) ∧
      value? "\"me:shapes\"" = some (valueOf "me:shapes") := by
  obtain ⟨files, hfiles, hnames⟩ := exists_synthesize_shapesBy "me:shapes"
  obtain ⟨hopening, hvalue⟩ := origin_literal_iff (g := "me:shapes") rfl hfiles
  exact ⟨plans_shapesBy _, files, hfiles, hnames, hopening, hvalue.2 (by decide)⟩

theorem shapes_by_quotation :
    (shapesBy "say \"hi\"").plans = .ok [shapePlan] ∧
    ∃ files, synthesize (.ofManifest (shapesBy "say \"hi\"")) [shapePlan] = .ok files ∧
      files.map (·.className) = ["me.builder.ShapeBuilder", "me.builder.ShapeImpl"] ∧
      (∀ f ∈ files, ∃ p ∈ [shapePlan], ∃ u start,
        (u, start) ∈ p.units (.ofManifest (shapesBy "say \"hi\"")) ∧ f.content = u.text start ∧
        ∃ below, f.content = u.opening start "\"say \"hi\"\"" ++ below) ∧
      value? "\"say \"hi\"\"" = none ∧
      value? "\"say \\\"hi\\\"\"" = some (valueOf "say \"hi\"") := by
  obtain ⟨files, hfiles, hnames⟩ := exists_synthesize_shapesBy "say \"hi\""
  exact ⟨plans_shapesBy _, files, hfiles, hnames,
    fun _ => exists_opening_of_synthesize (g := "say \"hi\"") rfl hfiles, by decide, by decide⟩

end Shapes

end StagedBuilder
