import StagedBuilder.Proofs.GeneratedNames
import StagedBuilder.Proofs.WritingLaws

namespace StagedBuilder

open FileTree (Extends place)

namespace ClassName

variable {name s : String} {ss : List String}

def fileBelow (base name : String) : String := step base (sourcePath name)

theorem of_segments (h : segments name = ss ++ [s]) :
    simple name = s ∧ (ss ≠ [] → segments (package name) = ss) := by
  cases hdot : Imports.isDotted name with
  | false =>
    rw [segments_of_not_isDotted hdot, ← List.nil_append [name]] at h
    obtain ⟨hss, hs⟩ := List.append_inj' h rfl
    rw [simple_of_not_isDotted hdot]
    exact ⟨List.singleton_inj.1 hs, fun hne => absurd hss.symm hne⟩
  | true =>
    rw [segments_of_isDotted hdot] at h
    obtain ⟨hss, hs⟩ := List.append_inj' h rfl
    exact ⟨List.singleton_inj.1 hs, fun _ => hss⟩

end ClassName

open ClassName (WellFormed Spelled segments fileBelow)

namespace NameTemplate.IsSuffix

variable {t : NameTemplate} {suffix package simple : String}

theorem simple_resolve (h : t.IsSuffix suffix) (hpackage : package = "" ∨ WellFormed package)
    (hsimple : isIdentifier simple = true) :
    ClassName.simple (t.resolve package simple) = simple ++ suffix ∧
      ClassName.simple (ClassName.package (t.resolve package simple)) = "builder" := by
  have hsegments := h.segments_resolve hpackage hsimple
  rw [List.append_cons] at hsegments
  obtain ⟨hname, hclass⟩ := ClassName.of_segments hsegments
  exact ⟨hname, (ClassName.of_segments (hclass (by simp))).1⟩

theorem resolve_ne (h : t.IsSuffix suffix) {name : String}
    (hpackage : package = "" ∨ WellFormed package)
    (hsimple : isIdentifier (ClassName.simple name) = true) :
    t.resolve package (ClassName.simple name) ≠ name := by
  intro heq
  have hne : suffix ≠ "" := by cases h <;> decide
  have hname := (h.simple_resolve hpackage hsimple).1
  rw [heq, eq_comm, String.append_eq_left_iff] at hname
  exact hne hname

end NameTemplate.IsSuffix

theorem SourceFile.placeBelow_eq {base : String} (f : SourceFile) :
    f.placeBelow base = place (fileBelow base f.className) := by
  unfold placeBelow pathBelow path fileBelow
  rfl

section Runs

variable {s : SupportClasses} {m : Manifest} {plan : Plan} {plans : List Plan} {name base : String}
  {d : TypeDecl} {t t' : FileTree} {dryRun : Bool} {result : Except GenerateError Generated}

theorem spelled_of_generated (hm : m.fault? = none) (hplans : m.plans = .ok plans) :
    ∀ n ∈ plans.flatMap (·.classNames), Spelled n := by
  intro n hn
  obtain ⟨plan, hplan, hn⟩ := List.mem_flatMap.1 hn
  obtain ⟨d, hd, hdecl⟩ := Plan.exists_decl_of_mem hplans hplan
  rw [(Plan.classNames_of_ofDecl hdecl).2] at hn
  obtain ⟨template, htemplate, rfl⟩ := List.mem_map.1 hn
  exact (Plan.spelled_of_accepted (Manifest.accepted_of_mem hm hd template htemplate)
    (Manifest.namesFit_of_mem hm hd)).1

theorem extends_generate (h : generate FileTree.access s plans base dryRun t = (result, t')) :
    Extends ((plans.flatMap (·.classNames)).map fun n => place (fileBelow base n)) t t' := by
  unfold generate at h
  cases hfiles : synthesize s plans with
  | error e =>
    rw [hfiles] at h
    obtain ⟨-, rfl⟩ := Prod.mk.inj h
    exact .refl _ _
  | ok files =>
    cases dryRun with
    | true =>
      rw [hfiles] at h
      obtain ⟨-, rfl⟩ := Prod.mk.inj h
      exact .refl _ _
    | false =>
      rcases hwritten : writeAll FileTree.access base files t with ⟨results, t₁⟩
      simp only [hfiles, Bool.false_eq_true, if_false, bind, StateT.bind, hwritten] at h
      obtain ⟨-, rfl⟩ := Prod.mk.inj h
      have hplaces : files.map (·.placeBelow base) =
          (plans.flatMap (·.classNames)).map fun n => place (fileBelow base n) := by
        simp only [← classNames_of_synthesize hfiles, List.map_map, Function.comp_def,
          SourceFile.placeBelow_eq]
      rw [← hplaces]
      exact extends_writeAll hwritten

theorem files_of_synthesize {files : List SourceFile} (h : synthesize s plans = .ok files)
    (hplan : plan ∈ plans) : ∃ fs, plan.files s = .ok fs ∧ fs ⊆ files := by
  rw [synthesize_eq] at h
  obtain ⟨fss, hfss, rfl⟩ := map_eq_ok_iff.1 h
  rw [mapM_eq_ok_iff] at hfss
  clear h
  induction hfss with
  | nil => cases hplan
  | cons hp _ ih =>
    rw [List.flatten_cons]
    rcases List.mem_cons.1 hplan with rfl | hplan
    · exact ⟨_, mapError_eq_ok_iff.1 hp, List.subset_append_left _ _⟩
    · obtain ⟨fs, hfs, hsubset⟩ := ih hplan
      exact ⟨fs, hfs, List.subset_append_of_subset_right _ hsubset⟩

theorem read_of_generated (hm : m.fault? = none) (hplans : m.plans = .ok plans) {g : Generated}
    (h : generate FileTree.access s plans base false t = (.ok g, t')) (hplan : plan ∈ plans)
    (hn : name ∈ plan.classNames) :
    ∃ fs, ∃ f ∈ fs, plan.files s = .ok fs ∧ f.className = name ∧
      t'.read (fileBelow base name) = .ok f.content := by
  cases hfiles : synthesize s plans with
  | error e =>
    rw [generate, hfiles] at h
    cases (Prod.mk.inj h).1
  | ok files =>
    obtain ⟨results, hwritten, -⟩ := (generate_eq_ok_iff hfiles).1 h
    obtain ⟨fs, hfs, hsubset⟩ := files_of_synthesize hfiles hplan
    rw [← Plan.classNames_of_files hfs] at hn
    obtain ⟨f, hf, rfl⟩ := List.mem_map.1 hn
    have hclassNames := classNames_of_synthesize hfiles
    have hspelled : ∀ f ∈ files, Spelled f.className := fun f hf =>
      spelled_of_generated hm hplans _ (hclassNames ▸ List.mem_map_of_mem hf)
    have hplaces := nodup_places hspelled (hclassNames ▸ nodup_classNames hplans) base
    exact ⟨fs, f, hf, hfs, rfl, writeAll_ok hwritten hplaces f (hsubset hf)⟩

/--
Which of the declared types a run replaces. A generated class has the name that its template
spells, and the templates that are used where none is given never spell that of the class which is
built, and that of another one only in a package `builder`. The file of a declared type whose name
no template spells stays as it is, however the run ends; any other is replaced if the run succeeds.
-/
theorem targets_of_run (s : SupportClasses) (hm : m.fault? = none) (hplans : m.plans = .ok plans) :
    (∀ plan ∈ plans, ∃ d, (plan.type, d) ∈ m.types ∧
      plan.classNames = (d.templates m.defaults).map
        (·.resolve (d.packageOf plan.type) (ClassName.simple plan.type)) ∧
      ∀ t ∈ d.templates m.defaults, t = .builder ∨ t = .implementation →
        ∀ n, n = t.resolve (d.packageOf plan.type) (ClassName.simple plan.type) →
          n ≠ plan.type ∧ ClassName.simple (ClassName.package n) = "builder") ∧
    ∀ base dryRun t result t', generate FileTree.access s plans base dryRun t = (result, t') →
      ∀ name d, (name, d) ∈ m.types →
        (name ∉ plans.flatMap (·.classNames) →
          (∀ content, t'.entry? (place (fileBelow base name)) = some (.file content) ↔
            t.entry? (place (fileBelow base name)) = some (.file content)) ∧
          ∀ content, t.read (fileBelow base name) = .ok content →
            t'.read (fileBelow base name) = .ok content) ∧
        ∀ plan ∈ plans, name ∈ plan.classNames → dryRun = false → (∃ g, result = .ok g) →
          ∃ fs, ∃ f ∈ fs, plan.files s = .ok fs ∧ f.className = name ∧
            t'.read (fileBelow base name) = .ok f.content := by
  constructor
  · intro plan hplan
    obtain ⟨d, hd, hdecl⟩ := Plan.exists_decl_of_mem hplans hplan
    have hnames := Manifest.namesFit_of_mem hm hd
    have hpackage := hnames.package.imp_right And.left
    refine ⟨d, hd, (Plan.classNames_of_ofDecl hdecl).2, ?_⟩
    rintro t - hstandard n rfl
    obtain ⟨suffix, hsuffix⟩ : ∃ suffix, t.IsSuffix suffix := by
      rcases hstandard with rfl | rfl
      · exact ⟨_, .builder⟩
      · exact ⟨_, .implementation⟩
    exact ⟨hsuffix.resolve_ne hpackage hnames.simple,
      (hsuffix.simple_resolve hpackage hnames.simple).2⟩
  · intro base dryRun t result t' h name d hd
    have hname := (Manifest.namesFit_of_mem hm hd).wellFormed.spelled
    refine ⟨fun hfree => ?_, ?_⟩
    · have hplace : place (fileBelow base name) ∉
          (plans.flatMap (·.classNames)).map fun n => place (fileBelow base n) := by
        intro hmem
        obtain ⟨n, hn, heq⟩ := List.mem_map.1 hmem
        exact hfree ((spelled_of_generated hm hplans n hn).eq_of_place hname heq ▸ hn)
      have hextends := extends_generate h
      exact ⟨hextends.file_iff hplace, fun content => hextends.read hplace⟩
    · rintro plan hplan hmem rfl ⟨g, rfl⟩
      exact read_of_generated hm hplans h hplan hmem

end Runs

def things : Manifest where
  types := [
    ("me.Thing", { kind := .record, builder := some "$\x7bpkg\x7d.$\x7bsimpleName\x7d" }),
    ("me.Other", { kind := .record }),
    ("me.builder.OtherBuilder", { kind := .record })]

theorem faultless_things : things.fault? = none := by decide

theorem plans_things : things.plans.map (·.map fun p => (p.type, p.classNames)) = .ok [
    ("me.Thing", ["me.Thing"]), ("me.Other", ["me.builder.OtherBuilder"]),
    ("me.builder.OtherBuilder", ["me.builder.builder.OtherBuilderBuilder"])] := by
  decide

theorem other_kept : things.fault? = none ∧
    ∃ plans, things.plans = .ok plans ∧
      ∀ base dryRun t result t', generate FileTree.access {} plans base dryRun t = (result, t') →
        ∀ content, t.read (fileBelow base "me.Other") = .ok content →
          t'.read (fileBelow base "me.Other") = .ok content := by
  obtain ⟨plans, hplans, hnames⟩ := map_eq_ok_iff.1 plans_things
  have hfree : "me.Other" ∉ plans.flatMap (·.classNames) := by
    have hclasses := congrArg (List.flatMap Prod.snd) hnames
    rw [List.flatMap_map] at hclasses
    rw [hclasses]
    decide
  refine ⟨faultless_things, plans, hplans, fun base dryRun t result t' h => ?_⟩
  obtain ⟨-, hruns⟩ := targets_of_run {} faultless_things hplans
  exact ((hruns base dryRun t result t' h "me.Other" { kind := .record } (.tail _ (.head _))).1
    hfree).2

theorem things_replaced : things.fault? = none ∧
    ∃ plans, things.plans = .ok plans ∧
      (∃ plan ∈ plans, plan.type = "me.Thing" ∧ "me.Thing" ∈ plan.classNames) ∧
      "me.builder.OtherBuilder" ∈ things.types.map Prod.fst ∧
      ∃ plan ∈ plans, plan.type = "me.Other" ∧ "me.builder.OtherBuilder" ∈ plan.classNames := by
  obtain ⟨plans, hplans, hnames⟩ := map_eq_ok_iff.1 plans_things
  have hplan {type n : String} (hn : (type, [n]) ∈ plans.map fun p => (p.type, p.classNames)) :
      ∃ plan ∈ plans, plan.type = type ∧ n ∈ plan.classNames := by
    obtain ⟨plan, hmem, heq⟩ := List.mem_map.1 hn
    obtain ⟨htype, hclasses⟩ := Prod.mk.inj heq
    exact ⟨plan, hmem, htype, hclasses ▸ List.mem_singleton_self n⟩
  rw [hnames] at hplan
  exact ⟨faultless_things, plans, hplans, hplan (.head _), by decide, hplan (.tail _ (.head _))⟩

end StagedBuilder
