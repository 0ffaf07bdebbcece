import StagedBuilder.Proofs.CommentText
import StagedBuilder.Proofs.GeneratedNames
import StagedBuilder.Proofs.SetterSites

/-!
The documentation of setters. Whatever the documentation of a parameter is, its comments keep to
themselves, and they tell what the setter does, the documentation and how the value may be absent.
-/

namespace StagedBuilder

open Java Text

namespace Text

def rangesApart (ranges others : List (Nat × Nat)) : Bool :=
  ranges.all fun r => others.all fun t => r.2 < t.1 || t.2 < r.1

theorem not_within_of_apart {ranges others : List (Nat × Nat)} {c : Char}
    (hapart : rangesApart ranges others = true) (h : within ranges c = true) :
    within others c = false := by
  rw [within, List.any_eq_true] at h
  obtain ⟨r, hr, hc⟩ := h
  rw [within, List.any_eq_false]
  intro t ht hother
  have hrt := List.all_eq_true.1 (List.all_eq_true.1 hapart r hr) t ht
  simp only [Bool.and_eq_true, Bool.or_eq_true, decide_eq_true_iff] at hc hother hrt
  omega

end Text

theorem not_isBlank_of_continues {c : Char} (h : continuesIdentifier c = true) :
    isBlank c = false := by
  have hletters : rangesApart letterRanges blankRanges = true := by decide +kernel
  have hnumerals : rangesApart numeralRanges blankRanges = true := by decide +kernel
  simp only [continuesIdentifier, Bool.or_eq_true, decide_eq_true_iff] at h
  obtain ((hletter | hnumeral) | rfl) | rfl := h
  · exact not_within_of_apart hletters hletter
  · exact not_within_of_apart hnumerals hnumeral
  · decide
  · decide

theorem star_not_mem {name : String} (h : isIdentifier name = true) : '*' ∉ name.toList := by
  have hstar : continuesIdentifier '*' = false := by decide +kernel
  intro hmem
  rw [continues_of_isIdentifier h hmem] at hstar
  cases hstar

theorem oneLine_of_isIdentifier {name : String} (h : isIdentifier name = true) :
    OneLine name.toList :=
  oneLine_of_visible fun _ hc => not_isBlank_of_continues (continues_of_isIdentifier h hc)

namespace Builder

inductive Returns (b : Builder) : String → Prop
  | same : Returns b "this builder"
  | next : Returns b "the next builder stage"
  | built : Returns b ("the built \x7b@code " ++ ClassName.simple b.target ++ "\x7d")

/-- The documentation of the setters of a parameter. -/
inductive Explains (b : Builder) (p : Parameter) : Notice → Doc → Prop
  | value {returns : String} (returned : Returns b returns) :
      Explains b p (.ofParameter p) (setterDoc p (.ofParameter p) returns)
  | inside {returns : String} (wraps : p.isWrapped = true) (returned : Returns b returns) :
      Explains b p .optionalValue (setterDoc p .optionalValue returns)

def Explained (b : Builder) (m : Method) : Prop :=
  ∀ d, m.doc = some d → ∃ p ∈ b.params, m.name = p.name ∧ ∃ notice, Explains b p notice d

section Explained

variable {s : SupportClasses} {b : Builder} {p : Parameter} {site : Site} {m : Method}

theorem explained_of_none (h : m.doc = none) : Explained b m := by
  intro d hd
  rw [h] at hd
  cases hd

theorem explained_setter (hp : p ∈ b.params) (hreturns : Returns b site.next.description) :
    Explained b (setter s p (.ofParameter p) site) := by
  rintro _ ⟨⟩
  exact ⟨p, hp, rfl, _, .value hreturns⟩

theorem explained_of_collector (hm : m ∈ collector s p site) : Explained b m := by
  obtain ⟨c, elements, -, rfl⟩ := eq_of_mem_collector hm
  exact explained_of_none rfl

theorem explained_of_fluentSetters {ps : List Parameter} (hps : ∀ p ∈ ps, p ∈ b.params)
    (hreturns : Returns b site.next.description)
    (hm : m ∈ ps.flatMap fun p => fluentSetters s p site) : Explained b m := by
  obtain ⟨p, hp, hm⟩ := List.mem_flatMap.1 hm
  rw [fluentSetters, List.mem_append, List.mem_append, List.mem_singleton] at hm
  rcases hm with (hm | hm) | rfl
  · obtain ⟨inner, hw, rfl⟩ := eq_of_mem_valueSetter hm
    have hwraps : p.isWrapped = true := by
      rw [Parameter.isWrapped, Parameter.absence, hw]
      rfl
    rintro _ ⟨⟩
    exact ⟨p, hps p hp, rfl, _, .inside hwraps hreturns⟩
  · exact explained_of_collector hm
  · exact explained_setter (hps p hp) hreturns

theorem explained_of_mandatorySetters (hp : p ∈ b.mandatory)
    (hreturns : Returns b site.next.description) (hm : m ∈ mandatorySetters s p site) :
    Explained b m := by
  have hnotice : Notice.ofParameter p = .mandatory := by
    have hrequired : p.absence = .required := of_decide_eq_true (List.mem_filter.1 hp).2
    rw [Notice.ofParameter, hrequired]
  rw [mandatorySetters, List.mem_append, List.mem_singleton] at hm
  rcases hm with hm | rfl
  · exact explained_of_collector hm
  · exact hnotice ▸ explained_setter (mem_params_of_mandatory hp) hreturns

theorem explained_of_waitingMethods {current next : Parameter} {isLast : Bool}
    (hnext : next ∈ b.mandatory) (hm : m ∈ waitingMethods s b current next isLast) :
    Explained b m := by
  unfold waitingMethods at hm
  split_ifs at hm
  · rw [List.mem_append, List.mem_singleton] at hm
    rcases hm with hm | rfl
    · exact explained_of_mandatorySetters hnext .same hm
    · exact explained_of_none rfl
  · exact explained_of_mandatorySetters hnext .built hm
  · exact explained_of_mandatorySetters hnext .next hm

theorem explained_of_stage {methods : List Method} (hmethods : ∀ m ∈ methods, Explained b m)
    (hm : m ∈ (b.stage p methods).methods) : Explained b m := by
  rcases List.mem_cons.1 hm with rfl | hm
  · exact explained_of_none rfl
  · exact hmethods m hm

theorem explained_of_optionalMethods {last : Parameter} (hm : m ∈ optionalMethods s b last) :
    Explained b m := by
  rw [optionalMethods, List.mem_append, List.mem_singleton] at hm
  rcases hm with hm | rfl
  · exact explained_of_fluentSetters (fun p => mem_params_of_optional) .same hm
  · exact explained_of_none rfl

theorem explained_of_stagesFrom {ps : List Parameter} (hps : ∀ p ∈ ps, p ∈ b.mandatory)
    {c : NestedClass} (hc : c ∈ b.stagesFrom s ps) (hm : m ∈ c.methods) : Explained b m := by
  induction ps with
  | nil => cases hc
  | cons current ps ih =>
    cases ps with
    | nil =>
      rw [stagesFrom] at hc
      split_ifs at hc
      · cases hc
      · rw [List.mem_singleton.1 hc] at hm
        exact explained_of_stage (fun m => explained_of_optionalMethods) hm
    | cons next ps =>
      obtain ⟨-, hrest⟩ := List.forall_mem_cons.1 hps
      rw [stagesFrom, List.mem_cons] at hc
      rcases hc with rfl | hc
      · exact explained_of_stage (fun m => explained_of_waitingMethods (hrest next (.head _))) hm
      · exact ih hrest hc

theorem explained_of_entering (hm : m ∈ b.hiddenConstructor :: b.creators) : Explained b m := by
  rcases List.mem_cons.1 hm with rfl | hm
  · exact explained_of_none rfl
  · rcases eq_of_mem_creators hm with rfl | rfl
    · exact explained_of_none rfl
    · exact explained_of_none rfl

theorem explained_of_copyMethod (hm : m ∈ if b.emitsCopy then [b.copyMethod s] else []) :
    Explained b m := by
  rw [List.mem_ite_nil_right, List.mem_singleton] at hm
  obtain ⟨-, rfl⟩ := hm
  exact explained_of_none rfl

theorem explained_of_methods (hm : m ∈ (b.unit s).methods) : Explained b m := by
  cases hshape : b.shape with
  | flat =>
    rw [methods_flat hshape, flatMethods, List.mem_append, List.mem_append, List.mem_append,
      List.mem_singleton] at hm
    rcases hm with ((hm | hm) | rfl) | hm
    · exact explained_of_entering hm
    · exact explained_of_fluentSetters (fun _ hp => hp) .same hm
    · exact explained_of_none rfl
    · exact explained_of_copyMethod hm
  | factory =>
    rw [methods_factory hshape, List.mem_append, List.mem_cons, List.mem_map] at hm
    rcases hm with (rfl | ⟨p, -, rfl⟩) | hm
    · exact explained_of_none rfl
    · exact explained_of_none rfl
    · exact explained_of_copyMethod hm
  | staged =>
    obtain ⟨first, rest, hmandatory, -⟩ := mandatory_of_staged hshape
    have hfirst : first ∈ b.mandatory := hmandatory ▸ List.mem_cons_self
    rw [methods_staged hshape, stagedMethods, List.mem_append, List.mem_append, List.mem_append,
      List.mem_singleton, hmandatory] at hm
    rcases hm with ((hm | hm) | rfl) | hm
    · exact explained_of_entering hm
    · exact explained_of_mandatorySetters hfirst .next hm
    · exact explained_of_none rfl
    · exact explained_of_copyMethod hm

theorem explained_of_nested {c : NestedClass} (hc : c ∈ (b.unit s).nestedClasses)
    (hm : m ∈ c.methods) : Explained b m := by
  rw [nestedClasses_unit, List.mem_append, List.mem_ite_nil_right, List.mem_singleton] at hc
  rcases hc with hc | ⟨-, rfl⟩
  · exact explained_of_stagesFrom (fun _ hp => hp) hc hm
  · rw [copyClass, List.mem_append, List.mem_cons, List.mem_singleton] at hm
    rcases hm with (rfl | hm) | rfl
    · exact explained_of_none rfl
    · exact explained_of_fluentSetters (fun _ hp => hp) .same hm
    · exact explained_of_none rfl

theorem explained_of_mem
    (hm : m ∈ (b.unit s).methods ++ (b.unit s).nestedClasses.flatMap (·.methods)) :
    Explained b m := by
  rw [List.mem_append, List.mem_flatMap] at hm
  rcases hm with hm | ⟨c, hc, hm⟩
  · exact explained_of_methods hm
  · exact explained_of_nested hc hm

theorem exists_doc_of_offered {owner : Expr} (hm : Offered s b owner m)
    (hformals : m.formals ≠ []) : ∃ d, m.doc = some d := by
  cases hm with
  | setter => exact ⟨_, rfl⟩
  | innerSetter => exact ⟨_, rfl⟩
  | accessor => exact absurd rfl hformals
  | build => exact absurd rfl hformals
  | delegatedBuild => exact absurd rfl hformals

theorem exists_doc_of_mem
    (hm : m ∈ (b.unit s).methods ++ (b.unit s).nestedClasses.flatMap (·.methods))
    (hpublic : m.isPublic = true) (hinstance : m.isStatic = false) (hformals : m.formals ≠ []) :
    ∃ d, m.doc = some d := by
  cases written_of_mem hm with
  | outer outer =>
    exact exists_doc_of_offered (offered_of_outer outer hpublic hinstance) hformals
  | offered offered => exact exists_doc_of_offered offered hformals
  | stageConstructor => cases hpublic
  | copyConstructor => cases hpublic

end Explained

section Told

variable {s : SupportClasses} {b : Builder} {p : Parameter} {notice : Notice} {returns : String}

def said (p : Parameter) : List (List Char) :=
  words ("Sets \x7b@code " ++ p.name ++ "\x7d.").toList ++
    (p.doc.map fun doc => words (replace "*/".toList "*&#47;".toList doc.toList)).getD []

/-- What is said of the parameter, and how its value may be absent. -/
def told (p : Parameter) (notice : Notice) : List (List Char) :=
  said p ++ words notice.text.toList

theorem toList_guardComment (doc : String) :
    (guardComment doc).toList = guarded (trim doc.toList) := String.toList_ofList

theorem words_spaced (s t : String) :
    words (s ++ " " ++ t).toList = words s.toList ++ words t.toList := by
  have hspace : isBlank ' ' = true := by decide
  rw [String.toList_append, String.toList_append, List.append_assoc]
  exact words_append_cons hspace s.toList t.toList

theorem words_said (p : Parameter) :
    words ("Sets \x7b@code " ++ p.name ++ "\x7d." ++
      (p.doc.map fun doc => " " ++ guardComment doc).getD "").toList = said p := by
  generalize hsets : "Sets \x7b@code " ++ p.name ++ "\x7d." = sets
  rw [said, hsets]
  cases p.doc with
  | none =>
    rw [Option.map_none, Option.getD_none, String.append_empty, Option.map_none, Option.getD_none,
      List.append_nil]
  | some doc =>
    have hdoc : words (guardComment doc).toList =
        words (replace "*/".toList "*&#47;".toList doc.toList) := by
      rw [toList_guardComment]
      exact words_guarded_trim doc.toList
    rw [Option.map_some, Option.getD_some, Option.map_some, Option.getD_some,
      ← String.append_assoc, words_spaced, hdoc]

theorem words_setterDoc (p : Parameter) (notice : Notice) (returns : String) :
    words (setterDoc p notice returns).text.toList = told p notice := by
  rw [told, ← words_said]
  exact words_spaced _ _

theorem unclosed_notice (notice : Notice) : '*' ∉ notice.text.toList := by
  cases notice <;> decide +kernel

theorem unclosed_setterDoc (hname : isIdentifier p.name = true) :
    Unclosed (setterDoc p notice returns).text.toList := by
  have hsets : Unclosed ("Sets \x7b@code " ++ p.name ++ "\x7d.").toList := by
    apply unclosed_of_not_mem
    simp only [String.toList_append, List.mem_append, not_or]
    exact ⟨⟨by decide, star_not_mem hname⟩, by decide⟩
  have hspace {s : List Char} (hs : Unclosed s) :
      Unclosed (" ".toList ++ s) ∧ (" ".toList ++ s).head? ≠ some '/' :=
    ⟨Unclosed.append (by decide) hs (.inl (by decide)), by simp⟩
  have hdoc : Unclosed ((p.doc.map fun doc => " " ++ guardComment doc).getD "").toList ∧
      ((p.doc.map fun doc => " " ++ guardComment doc).getD "").toList.head? ≠ some '/' := by
    cases p.doc with
    | none => exact ⟨List.isChain_nil, nofun⟩
    | some doc =>
      rw [Option.map_some, Option.getD_some, String.toList_append, toList_guardComment]
      exact hspace (unclosed_guarded _)
  have hnotice := hspace (unclosed_of_not_mem (unclosed_notice notice))
  have htext : (setterDoc p notice returns).text.toList =
      ("Sets \x7b@code " ++ p.name ++ "\x7d.").toList ++
        ((p.doc.map fun doc => " " ++ guardComment doc).getD "").toList ++
          (" ".toList ++ notice.text.toList) := by
    simp only [setterDoc, String.toList_append, List.append_assoc]
  rw [htext]
  exact (hsets.append hdoc.1 (.inr hdoc.2)).append hnotice.1 (.inr hnotice.2)

theorem Returns.contained (h : Returns b returns) (htarget : ClassName.WellFormed b.target) :
    OneLine returns.toList ∧ '*' ∉ returns.toList := by
  have hsimple : isIdentifier (ClassName.simple b.target) = true := htarget.isIdentifier_simple
  cases h with
  | same => decide
  | next => decide
  | built =>
    simp only [String.toList_append, List.mem_append, not_or]
    constructor
    · exact (OneLine.append (by decide) (oneLine_of_isIdentifier hsimple)).append (by decide)
    · exact ⟨⟨by decide, star_not_mem hsimple⟩, by decide⟩

theorem contained_setterDoc (htarget : ClassName.WellFormed b.target)
    (hname : isIdentifier p.name = true) (hreturns : Returns b returns) :
    (setterDoc p notice returns).Contained where
  text := unclosed_setterDoc hname
  param := oneLine_of_isIdentifier hname
  open_param := star_not_mem hname
  returns := (hreturns.contained htarget).1
  open_returns := (hreturns.contained htarget).2

theorem Explains.contained {d : Doc} (h : Explains b p notice d)
    (htarget : ClassName.WellFormed b.target) (hname : isIdentifier p.name = true) :
    d.Contained ∧ words d.text.toList = told p notice := by
  cases h with
  | value returned =>
    exact ⟨contained_setterDoc htarget hname returned, words_setterDoc _ _ _⟩
  | inside wraps returned =>
    exact ⟨contained_setterDoc htarget hname returned, words_setterDoc _ _ _⟩

end Told

/--
Where the target has a well-formed name, all setters are documented, the documentation in a file is
that of setters, and if the parameter is called by an identifier, it stands in a comment that ends
where it should and has all words of the documentation, whatever that is.
-/
theorem comments_contain_documentation {s : SupportClasses} {b : Builder} {text : String}
    (h : b.source s = .ok text) (htarget : ClassName.WellFormed b.target) :
    let u := b.unit s
    text = String.join ((u.stretches b.ownNames).map (·.text)) ∧
    (∀ p ∈ b.params, HasSetters s b p) ∧
    (∀ m ∈ u.methods ++ u.nestedClasses.flatMap (·.methods), m.isPublic = true →
      m.isStatic = false → m.formals ≠ [] → ∃ p ∈ b.params, m.name = p.name ∧
        ∃ notice d, Explains b p notice d ∧ u.Documents b.ownNames m d) ∧
    ∀ x ∈ u.stretches b.ownNames, ∀ d, x.doc = some d →
      (∃ p ∈ b.params, ∃ notice, Explains b p notice d) ∧
      ∀ p ∈ b.params, ∀ notice, Explains b p notice d → isIdentifier p.name = true →
        ∃ description, IsComment x.text description ∧
          description.flatMap (fun line => words (starless line)) = told p notice := by
  intro u
  obtain ⟨-, htext⟩ := of_source_eq_ok h
  refine ⟨htext.trans (SourceUnit.text_eq_join _ _), fun p => hasSetters, ?_, fun x hx d hd => ?_⟩
  · intro m hm hpublic hinstance hformals
    obtain ⟨d, hd⟩ := exists_doc_of_mem hm hpublic hinstance hformals
    obtain ⟨p, hp, hname, notice, hexplains⟩ := explained_of_mem hm d hd
    exact ⟨p, hp, hname, notice, d, hexplains, SourceUnit.documents hm hd b.ownNames⟩
  · obtain ⟨⟨m, hm, hdoc⟩, depth, hlaid⟩ := SourceUnit.of_mem_stretches hx hd
    obtain ⟨p, hp, -, hexplains⟩ := explained_of_mem hm d hdoc
    refine ⟨⟨p, hp, hexplains⟩, fun p hp notice hexplains hname => ?_⟩
    obtain ⟨hcontained, hwords⟩ := hexplains.contained htarget hname
    rw [hlaid, ← hwords]
    exact hcontained.exists_isComment depth

def fence : Builder where
  target := "me.Fence"
  name := "me.builder.FenceBuilder"
  params := [
    { name := "posts", type := .parsed (.leaf "int")
      doc := some "Between /* and */,\n\tand **// after that. " },
    { name := "gate", type := .parsed (.node optionalClass [.leaf "String"]), doc := some "*/" }]
  construction := .direct

theorem fence_comments :
    let u := fence.unit {}
    fence.source {} = .ok (u.text fence.ownNames) ∧
      (∀ s ∈ ClassName.segments fence.target, isIdentifier s = true) ∧
      (∀ p ∈ fence.params, ∃ m x y notice description, Sets {} p m ∧
        [x, y] <:+: u.stretches fence.ownNames ∧ IsComment x.text description ∧
        description.flatMap (fun line => words (starless line)) = told p notice ∧
        ∃ depth, y.text =
          (Sheet.laid depth (m.code (u.imports fence.ownNames).display)).text) ∧
      (told fence.params[0] .mandatory).map String.ofList =
        ["Sets", "\x7b@code", "posts\x7d.", "Between", "/*", "and", "*&#47;,", "and", "**&#47;/",
          "after", "that.", "This", "parameter", "is", "<b>MANDATORY</b>."] := by
  intro u
  have hsource : fence.source {} = .ok (u.text fence.ownNames) := rfl
  have htarget : ∀ s ∈ ClassName.segments fence.target, isIdentifier s = true := by
    decide +kernel
  have hnames : ∀ p ∈ fence.params, isIdentifier p.name = true := by decide +kernel
  have hdistinct : (fence.params.map (·.name)).Nodup := by decide
  obtain ⟨-, hsetters, hdocumented, hcomments⟩ := comments_contain_documentation hsource htarget
  refine ⟨hsource, htarget, fun p hp => ?_, by decide +kernel⟩
  obtain ⟨m, hm, hsets⟩ :
      ∃ m ∈ u.methods ++ u.nestedClasses.flatMap (·.methods), Sets {} p m := by
    rcases (hsetters p hp).outside (by decide) with ⟨m, hm, hsets⟩ | ⟨c, -, hc, m, hm, hsets⟩
    · exact ⟨m, List.mem_append_left _ hm, hsets⟩
    · exact ⟨m, List.mem_append_right _ (List.mem_flatMap.2 ⟨c, hc, hm⟩), hsets⟩
  have hformals : m.formals ≠ [] := by
    rw [hsets.formals]
    exact List.cons_ne_nil _ _
  obtain ⟨q, hq, hname, notice, d, hexplains, x, y, hwithin, hdoc, -, hcode⟩ :=
    hdocumented m hm hsets.isPublic hsets.isStatic hformals
  obtain rfl : q = p := List.inj_on_of_nodup_map hdistinct hq hp (hname.symm.trans hsets.name)
  obtain ⟨-, hcomment⟩ := hcomments x (hwithin.subset (.head _)) d hdoc
  obtain ⟨description, hcomment, hwords⟩ := hcomment q hq notice hexplains (hnames q hq)
  exact ⟨m, x, y, notice, description, hsets, hwithin, hcomment, hwords, hcode⟩

end Builder

end StagedBuilder
