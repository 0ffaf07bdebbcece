import StagedBuilder.Proofs.ClaimLaws
import StagedBuilder.Proofs.PlanLaws
import StagedBuilder.Proofs.TemplateLaws

namespace StagedBuilder

namespace ClassName

variable {name : String}

def HasHeads (name : String) : Prop :=
  ∀ s ∈ segments name, s.toList.head?.any startsIdentifier = true

theorem Spelled.wellFormed_iff (h : Spelled name) : WellFormed name ↔ HasHeads name := by
  refine forall₂_congr fun s hs => ?_
  have hletters := h.letters s hs
  rw [isIdentifier_iff]
  cases hchars : s.toList with
  | nil => simp
  | cons c cs =>
    rw [hchars, List.all_cons, Bool.and_eq_true] at hletters
    simpa using fun _ => hletters.2

theorem WellFormed.isIdentifier_simple (h : WellFormed name) :
    isIdentifier (simple name) = true := by
  refine h _ ?_
  rw [h.spelled.placeable.segments_eq]
  exact List.mem_append_right _ (List.mem_singleton_self _)

end ClassName

open ClassName (WellFormed Spelled HasHeads segments)

namespace NameTemplate

section Standard

variable {t : NameTemplate} {package simple suffix : String}

def placed (suffix : String) : List Part :=
  "builder".toList.map .literal ++ .literal '.' :: .simpleName :: suffix.toList.map .literal

inductive IsSuffix : NameTemplate → String → Prop
  | builder : IsSuffix builder "Builder"
  | implementation : IsSuffix implementation "Impl"

namespace IsSuffix

theorem toList_text (h : t.IsSuffix suffix) :
    t.text.toList = spell (.package :: .literal '.' :: placed suffix) := by
  cases h <;> decide

theorem bracketed (h : t.IsSuffix suffix) :
    Bracketed (.package :: .literal '.' :: placed suffix) := by
  have hno : Part.literal '\x7b' ∉ (.package :: .literal '.' :: placed suffix : List Part) := by
    cases h <;> decide
  exact fun p hp heq => hno (heq ▸ hp)

theorem collapse_placed (h : t.IsSuffix suffix) : collapse (placed suffix) = placed suffix := by
  cases h <;> decide

end IsSuffix

theorem flatMap_filling_literals (package simple s : List Char) :
    (s.map .literal).flatMap (filling package simple) = s := by
  rw [List.flatMap_map]
  exact List.flatMap_singleton' s

theorem flatMap_filling_placed (package : List Char) (simple suffix : String) :
    (placed suffix).flatMap (filling package simple.toList) =
      "builder".toList ++ '.' :: (simple ++ suffix).toList := by
  unfold placed
  rw [List.flatMap_append, List.flatMap_cons, List.flatMap_cons, flatMap_filling_literals,
    flatMap_filling_literals, String.toList_append, filling, filling, List.singleton_append]

theorem IsSuffix.segments_resolve (h : t.IsSuffix suffix)
    (hpackage : package = "" ∨ WellFormed package) (hsimple : isIdentifier simple = true) :
    segments (t.resolve package simple) =
      (if package = "" then [] else segments package) ++ ["builder", simple ++ suffix] := by
  have hlast : '.' ∉ (simple ++ suffix).toList := by
    rw [String.toList_append, List.mem_append, not_or]
    refine ⟨dot_not_mem (all_continues_of_isIdentifier hsimple), ?_⟩
    cases h <;> decide
  have hplaced : ("builder".toList ++ '.' :: (simple ++ suffix).toList).splitOn '.' =
      ["builder".toList, (simple ++ suffix).toList] := by
    rw [List.splitOn_append_cons_self, List.splitOn_eq_singleton hlast]
    rfl
  rw [ClassName.segments_eq]
  split_ifs with hempty
  · rw [hempty, Accepted.toList_default h.toList_text h.bracketed, collapse, h.collapse_placed,
      flatMap_filling_placed, hplaced]
    simp
  · have hfits := ClassName.wellFormed_iff_fits.1 (hpackage.resolve_left hempty)
    have htext : (t.resolve package simple).toList =
        package.toList ++ '.' :: ("builder".toList ++ '.' :: (simple ++ suffix).toList) := by
      rw [toList_resolve hempty, h.toList_text, fill_spell h.bracketed hfits.brace_not_mem,
        List.flatMap_cons, List.flatMap_cons, flatMap_filling_placed]
      rfl
    rw [htext, List.splitOn_append_cons_self, hplaced, ClassName.segments_eq]
    simp

theorem IsSuffix.isKeyword_append (h : t.IsSuffix suffix) (simple : String) :
    isKeyword (simple ++ suffix) = false := by
  have hkeywords : ∀ k ∈ keywords, ¬suffix.toList <:+ k.toList := by cases h <;> decide
  rw [isKeyword, ← Bool.not_eq_true, List.contains_iff_mem]
  intro hmem
  refine hkeywords _ hmem ?_
  rw [String.toList_append]
  exact List.suffix_append _ _

theorem IsSuffix.isIdentifier_append (h : t.IsSuffix suffix)
    (hsimple : isIdentifier simple = true) : isIdentifier (simple ++ suffix) = true := by
  obtain ⟨c, cs, hname, hc, hcs⟩ := isIdentifier_iff.1 hsimple
  have hsuffix : suffix.toList.all continuesIdentifier = true := by cases h <;> decide
  refine isIdentifier_iff.2 ⟨c, cs ++ suffix.toList, ?_, hc, ?_⟩
  · rw [String.toList_append, hname, List.cons_append]
  · rw [List.all_append, hcs, hsuffix, Bool.and_true]

end Standard

end NameTemplate

open NameTemplate (KeepsDots)

structure Manifest.NamesFit (name : String) (d : TypeDecl) : Prop where
  wellFormed : WellFormed name
  simple : isIdentifier (ClassName.simple name) = true
  package : d.packageOf name = "" ∨
    WellFormed (d.packageOf name) ∧ ∀ s ∈ segments (d.packageOf name), isKeyword s = false

section Faultless

variable {m : Manifest} {name : String} {d : TypeDecl}

theorem packageFault?_eq_none {path : List String} {type package : String}
    (h : packageFault? path type package = none) :
    package = "" ∨ WellFormed package ∧ ∀ s ∈ segments package, isKeyword s = false := by
  unfold packageFault? at h
  by_cases hempty : package = ""
  · exact .inl hempty
  · rw [if_neg hempty, Option.orElse_eq_or, Option.or_eq_none_iff] at h
    exact .inr (qualifiedNameFault?_eq_none_iff.1 h.1)

theorem Manifest.namesFit_of_mem (hm : m.fault? = none) (hd : (name, d) ∈ m.types) :
    NamesFit name d := by
  have hdecl := fault?_of_mem hm hd
  simp only [Manifest.fault?, Option.orElse_eq_or, Option.or_eq_none_iff,
    List.findSome?_eq_none_iff] at hm
  simp only [TypeDecl.fault?, Option.orElse_eq_or, Option.or_eq_none_iff] at hdecl
  obtain ⟨hname, hfree⟩ := qualifiedNameFault?_eq_none_iff.1 (hm.2.2 (name, d) hd).1
  refine ⟨hname, hname.isIdentifier_simple, ?_⟩
  unfold TypeDecl.packageOf
  cases hpackage : d.package with
  | some package =>
    rw [hpackage] at hdecl
    exact packageFault?_eq_none hdecl.1
  | none =>
    cases hdot : Imports.isDotted name with
    | false => exact .inl (ClassName.package_of_not_isDotted hdot)
    | true =>
      have hsegments := ClassName.segments_of_isDotted hdot
      refine .inr ⟨fun s hs => hname s ?_, fun s hs => hfree s ?_⟩ <;>
        exact hsegments ▸ List.mem_append_left _ hs

def TypeDecl.templates (defaults : Defaults) (d : TypeDecl) : List NameTemplate :=
  ⟨d.builder.getD defaults.builder⟩ ::
    if d.kind = .interface then [⟨d.implementation.getD defaults.implementation⟩] else []

theorem accepted_getD {path : List String} {kind kind' default : String} {given : Option String}
    (hdefault : templateFault? [] kind default = none)
    (hgiven : given.bind (templateFault? path kind') = none) :
    NameTemplate.Accepted ⟨given.getD default⟩ := by
  cases given with
  | none => exact templateFault?_eq_none_iff.1 hdefault
  | some template =>
    rw [Option.bind_some] at hgiven
    exact templateFault?_eq_none_iff.1 hgiven

theorem Manifest.accepted_of_mem (hm : m.fault? = none) (hd : (name, d) ∈ m.types) :
    ∀ t ∈ d.templates m.defaults, t.Accepted := by
  have hdecl := fault?_of_mem hm hd
  simp only [Manifest.fault?, Option.orElse_eq_or, Option.or_eq_none_iff] at hm
  simp only [TypeDecl.fault?, Option.orElse_eq_or, Option.or_eq_none_iff] at hdecl
  obtain ⟨hbuilder, himplementation, -⟩ := hm
  rw [TypeDecl.templates, List.forall_mem_cons]
  refine ⟨accepted_getD hbuilder hdecl.2.1, ?_⟩
  split_ifs
  · rw [List.forall_mem_singleton]
    exact accepted_getD himplementation hdecl.2.2.1
  · exact List.forall_mem_nil _

end Faultless

namespace Plan

variable {m : Manifest} {name : String} {d : TypeDecl} {plan : Plan} {plans : List Plan}

theorem classNames_of_ofDecl {defaults : Defaults} (h : ofDecl defaults name d = .ok plan) :
    plan.type = name ∧ plan.classNames = (d.templates defaults).map
      (·.resolve (d.packageOf name) (ClassName.simple name)) := by
  rw [ofDecl_eq] at h
  rcases hs : signature name d with e | ⟨v, declared⟩
  · rw [hs] at h
    exact nomatch h
  · rw [hs] at h
    obtain ⟨params, -, rfl⟩ := map_eq_ok_iff.1 h
    refine ⟨rfl, ?_⟩
    unfold TypeDecl.templates classNames implementation? construction
    by_cases hkind : d.kind = .interface
    · rw [if_pos hkind, if_pos hkind]
      rfl
    · rw [if_neg hkind, if_neg hkind]
      split_ifs <;> rfl

theorem exists_decl_of_mem (hplans : m.plans = .ok plans) (hplan : plan ∈ plans) :
    ∃ d, (plan.type, d) ∈ m.types ∧ ofDecl m.defaults plan.type d = .ok plan := by
  obtain ⟨i, hi, rfl⟩ := List.getElem_of_mem hplan
  have hplanned := (Manifest.plans_eq_ok_iff.1 hplans).1
  have htype : i < m.types.length := hplanned.length_eq ▸ hi
  have hdecl := hplanned.get htype hi
  rw [List.get_eq_getElem, List.get_eq_getElem] at hdecl
  rw [(classNames_of_ofDecl hdecl).1]
  exact ⟨_, List.getElem_mem htype, hdecl⟩

theorem spelled_of_accepted {t : NameTemplate} (ht : t.Accepted)
    (hnames : Manifest.NamesFit name d) :
    Spelled (t.resolve (d.packageOf name) (ClassName.simple name)) ∧
      (d.packageOf name ≠ "" ∨ t.KeepsDots →
        WellFormed (t.resolve (d.packageOf name) (ClassName.simple name))) := by
  rcases hnames.package with hempty | ⟨hpackage, -⟩
  · rw [hempty]
    refine ⟨ht.spelled hnames.simple, fun h => ?_⟩
    exact ht.wellFormed_of_keepsDots (h.resolve_left (not_not.2 rfl)) hnames.simple
  · have hname := ht.wellFormed hpackage hnames.simple
    exact ⟨hname.spelled, fun _ => hname⟩

theorem qualified_of_isSuffix {t : NameTemplate} {suffix : String} (ht : t.IsSuffix suffix)
    (hnames : Manifest.NamesFit name d) (path : List String) (kind : String) :
    qualifiedNameFault? path kind (t.resolve (d.packageOf name) (ClassName.simple name)) =
      none := by
  have hpackage := hnames.package.imp_right And.left
  rw [qualifiedNameFault?_eq_none_iff, WellFormed, ht.segments_resolve hpackage hnames.simple]
  simp only [List.forall_mem_append, List.forall_mem_cons]
  have hbuilder : isIdentifier "builder" = true ∧ isKeyword "builder" = false := by decide
  refine ⟨⟨?_, hbuilder.1, ht.isIdentifier_append hnames.simple, List.forall_mem_nil _⟩,
    ?_, hbuilder.2, ht.isKeyword_append _, List.forall_mem_nil _⟩ <;> split_ifs with hempty
  · exact List.forall_mem_nil _
  · exact (hnames.package.resolve_left hempty).1
  · exact List.forall_mem_nil _
  · exact (hnames.package.resolve_left hempty).2

/--
What can be wrong with the names of the classes generated for a type of a manifest without faults. A
name is valid exactly if each segment begins as an identifier does and none is reserved. The
first can only fail in the default package, for a template with a mark of the package that no dot
follows; neither fails for the templates that are used where none is given.
-/
theorem faults_of_classNames (hm : m.fault? = none) (hplans : m.plans = .ok plans)
    (hplan : plan ∈ plans) :
    ∃ d, (plan.type, d) ∈ m.types ∧
      plan.classNames = (d.templates m.defaults).map
        (·.resolve (d.packageOf plan.type) (ClassName.simple plan.type)) ∧
      ∀ t ∈ d.templates m.defaults, ∀ n,
        n = t.resolve (d.packageOf plan.type) (ClassName.simple plan.type) →
          (∀ path kind, qualifiedNameFault? path kind n = none ↔
            HasHeads n ∧ ∀ s ∈ segments n, isKeyword s = false) ∧
          (d.packageOf plan.type ≠ "" ∨ t.KeepsDots → HasHeads n) ∧
          (t = .builder ∨ t = .implementation →
            ∀ path kind, qualifiedNameFault? path kind n = none) := by
  obtain ⟨d, hd, hdecl⟩ := exists_decl_of_mem hplans hplan
  have hnames := Manifest.namesFit_of_mem hm hd
  refine ⟨d, hd, (classNames_of_ofDecl hdecl).2, ?_⟩
  rintro t ht n rfl
  obtain ⟨hspelled, hwell⟩ := spelled_of_accepted (Manifest.accepted_of_mem hm hd t ht) hnames
  refine ⟨fun path kind => ?_, fun h => hspelled.wellFormed_iff.1 (hwell h), ?_⟩
  · rw [qualifiedNameFault?_eq_none_iff, hspelled.wellFormed_iff]
  · rintro (rfl | rfl) path kind
    · exact qualified_of_isSuffix .builder hnames path kind
    · exact qualified_of_isSuffix .implementation hnames path kind

def gates : Manifest where
  types := [
    ("me.Gate", { kind := .record, builder := some "me.new.GateBuilder" }),
    ("Gate", { kind := .record, builder := some "gen.$\x7bpkg\x7d" }),
    ("Lock", { kind := .interface })]

theorem faultless_gates : gates.fault? = none := by decide

theorem classNames_gates : gates.plans.map (·.map (·.classNames)) =
    .ok [["me.new.GateBuilder"], ["gen."], ["builder.LockBuilder", "builder.LockImpl"]] := by
  decide

theorem gates_faults : gates.fault? = none ∧
    ∃ plans, gates.plans = .ok plans ∧
      ∀ plan ∈ plans, ∀ n ∈ plan.classNames,
        (∀ path kind, qualifiedNameFault? path kind n = none) ↔
          n = "builder.LockBuilder" ∨ n = "builder.LockImpl" := by
  obtain ⟨plans, hplans, hnames⟩ := map_eq_ok_iff.1 classNames_gates
  refine ⟨faultless_gates, plans, hplans, fun plan hplan n hn => ?_⟩
  obtain ⟨d, -, hclasses, hfaults⟩ := faults_of_classNames faultless_gates hplans hplan
  have hvalid : (∀ path kind, qualifiedNameFault? path kind n = none) ↔
      HasHeads n ∧ ∀ s ∈ segments n, isKeyword s = false := by
    obtain ⟨t, ht, htn⟩ := List.mem_map.1 (hclasses ▸ hn)
    have hn := (hfaults t ht n htn.symm).1
    exact ⟨fun h => (hn [] "").1 (h [] ""), fun h path kind => (hn path kind).2 h⟩
  have hvalues : ∀ names ∈ [["me.new.GateBuilder"], ["gen."],
      ["builder.LockBuilder", "builder.LockImpl"]], ∀ n ∈ names,
      (HasHeads n ∧ ∀ s ∈ segments n, isKeyword s = false) ↔
        n = "builder.LockBuilder" ∨ n = "builder.LockImpl" := by
    unfold HasHeads
    decide
  rw [hvalid]
  exact hvalues plan.classNames (hnames ▸ List.mem_map_of_mem hplan) n hn

theorem gates_not_qualified : gates.fault? = none ∧
    ∃ plans, gates.plans = .ok plans ∧
      ∃ plan ∈ plans, ∃ plan' ∈ plans, plan.builder.name = "me.new.GateBuilder" ∧
        plan'.builder.name = "gen." ∧
        qualifiedNameFault? [] "builder" "me.new.GateBuilder" =
          some ⟨.keyword "new" "builder", some "me.new.GateBuilder"⟩ ∧
        qualifiedNameFault? [] "builder" "gen." =
          some ⟨.identifier "gen." "builder" .empty, some "gen."⟩ := by
  have hbuilders : gates.plans.map (·.map (·.builder.name)) =
      .ok ["me.new.GateBuilder", "gen.", "builder.LockBuilder"] := by decide
  obtain ⟨plans, hplans, hnames⟩ := map_eq_ok_iff.1 hbuilders
  have hplan {n : String} (hn : n ∈ ["me.new.GateBuilder", "gen.", "builder.LockBuilder"]) :
      ∃ plan ∈ plans, plan.builder.name = n := by
    rw [← hnames, List.mem_map] at hn
    exact hn
  obtain ⟨plan, hmem, hname⟩ := hplan (by decide : "me.new.GateBuilder" ∈ _)
  obtain ⟨plan', hmem', hname'⟩ := hplan (by decide : "gen." ∈ _)
  exact ⟨faultless_gates, plans, hplans, plan, hmem, plan', hmem', hname, hname',
    by decide, by decide⟩

end Plan

end StagedBuilder
