import StagedBuilder.Proofs.FaultLaws
import StagedBuilder.Proofs.TemplateLaws

namespace StagedBuilder

open Text

/-- What has to hold, and the fault of a manifest for which it does not. -/
structure Rule where
  Holds : Prop
  fault : Fault

def FirstViolation (rules : List Rule) (f : Fault) : Prop :=
  ∃ before r after, rules = before ++ r :: after ∧ (∀ b ∈ before, b.Holds) ∧ ¬ r.Holds ∧ r.fault = f

/-- What is found are the rules' faults: none if all of them hold, and else the first. -/
inductive Judges (rules : List Rule) : Option Fault → Prop
  | followed (h : ∀ r ∈ rules, r.Holds) : Judges rules none
  | violated {f : Fault} (h : FirstViolation rules f) : Judges rules (some f)

section Judging

variable {α : Type} {r : Rule} {rules rules' : List Rule} {f g : Fault} {x y : Option Fault}

theorem firstViolation_cons :
    FirstViolation (r :: rules) f ↔
      ¬ r.Holds ∧ r.fault = f ∨ r.Holds ∧ FirstViolation rules f := by
  constructor
  · rintro ⟨before, r', after, heq, hbefore, hr', hf⟩
    cases before with
    | nil =>
      obtain ⟨rfl, rfl⟩ := List.cons.inj heq
      exact .inl ⟨hr', hf⟩
    | cons b before =>
      obtain ⟨rfl, rfl⟩ := List.cons.inj heq
      obtain ⟨hr, hbefore⟩ := List.forall_mem_cons.1 hbefore
      exact .inr ⟨hr, before, r', after, rfl, hbefore, hr', hf⟩
  · rintro (⟨hr, hf⟩ | ⟨hr, before, r', after, rfl, hbefore, hr', hf⟩)
    · exact ⟨[], r, rules, rfl, List.forall_mem_nil _, hr, hf⟩
    · exact ⟨r :: before, r', after, rfl, List.forall_mem_cons.2 ⟨hr, hbefore⟩, hr', hf⟩

theorem FirstViolation.not_followed (h : FirstViolation rules f) : ¬ ∀ r ∈ rules, r.Holds := by
  obtain ⟨before, r, after, rfl, -, hr, -⟩ := h
  exact fun hall => hr (hall r (List.mem_append_right _ List.mem_cons_self))

theorem FirstViolation.eq (h : FirstViolation rules f) (h' : FirstViolation rules g) : f = g := by
  induction rules with
  | nil => exact absurd (List.forall_mem_nil _) h.not_followed
  | cons r rules ih =>
    rw [firstViolation_cons] at h h'
    rcases h with ⟨hr, hf⟩ | ⟨hr, hf⟩ <;> rcases h' with ⟨hr', hg⟩ | ⟨hr', hg⟩
    · exact hf.symm.trans hg
    · exact absurd hr' hr
    · exact absurd hr hr'
    · exact ih hf hg

theorem Judges.none_iff (h : Judges rules x) : x = none ↔ ∀ r ∈ rules, r.Holds := by
  cases h with
  | followed h => exact iff_of_true rfl h
  | violated h => exact iff_of_false nofun h.not_followed

theorem Judges.some_iff (h : Judges rules x) : x = some f ↔ FirstViolation rules f := by
  cases h with
  | followed h => exact iff_of_false nofun fun hf => hf.not_followed h
  | violated h => exact ⟨fun hf => Option.some.inj hf ▸ h, fun hf => congrArg some (h.eq hf)⟩

theorem judges_nil : Judges [] none := .followed (List.forall_mem_nil _)

theorem judges_violated (hr : ¬ r.Holds) : Judges (r :: rules) (some r.fault) :=
  .violated (firstViolation_cons.2 (.inl ⟨hr, rfl⟩))

theorem Judges.after (h : Judges rules x) (hr : r.Holds) : Judges (r :: rules) x := by
  cases h with
  | followed h => exact .followed (List.forall_mem_cons.2 ⟨hr, h⟩)
  | violated h => exact .violated (firstViolation_cons.2 (.inr ⟨hr, h⟩))

theorem judges_unless {p : Prop} [Decidable p] (hp : p ↔ r.Holds) (h : Judges rules x) :
    Judges (r :: rules) (if p then x else some r.fault) := by
  split_ifs with hholds
  · exact h.after (hp.1 hholds)
  · exact judges_violated (mt hp.2 hholds)

theorem judges_if {p : Prop} [Decidable p] (hp : p ↔ ¬ r.Holds) (h : Judges rules x) :
    Judges (r :: rules) (if p then some r.fault else x) := by
  split_ifs with hviolated
  · exact judges_violated (hp.1 hviolated)
  · exact h.after (not_not.1 (mt hp.2 hviolated))

theorem Judges.append (h : Judges rules x) (h' : Judges rules' y) :
    Judges (rules ++ rules') (x.orElse fun _ => y) := by
  cases h with
  | followed h =>
    cases h' with
    | followed h' => exact .followed (List.forall_mem_append.2 ⟨h, h'⟩)
    | violated h' =>
      obtain ⟨before, r, after, rfl, hbefore, hr⟩ := h'
      exact .violated ⟨rules ++ before, r, after, (List.append_assoc ..).symm,
        List.forall_mem_append.2 ⟨h, hbefore⟩, hr⟩
  | violated h =>
    obtain ⟨before, r, after, rfl, hbefore, hr⟩ := h
    exact .violated ⟨before, r, after ++ rules', List.append_assoc .., hbefore, hr⟩

theorem judges_flatMap {rulesOf : α → List Rule} {fault? : α → Option Fault} {as : List α}
    (h : ∀ a ∈ as, Judges (rulesOf a) (fault? a)) :
    Judges (as.flatMap rulesOf) (as.findSome? fault?) := by
  induction as with
  | nil => exact judges_nil
  | cons a as ih =>
    obtain ⟨ha, has⟩ := List.forall_mem_cons.1 h
    rw [List.flatMap_cons, List.findSome?_cons]
    have happend := ha.append (ih has)
    cases hfault : fault? a <;> rw [hfault] at happend <;> exact happend

theorem judges_bind {rulesOf : α → List Rule} {fault? : α → Option Fault} {given : Option α}
    (h : ∀ a ∈ given, Judges (rulesOf a) (fault? a)) :
    Judges (given.toList.flatMap rulesOf) (given.bind fault?) := by
  cases given with
  | none => exact judges_nil
  | some a =>
    rw [Option.toList_some, List.flatMap_singleton]
    exact h a rfl

end Judging

section Rules

def identifierRules (word : String) (fault : IdentifierFault → Fault) : List Rule := [
  ⟨word ≠ "", fault .empty⟩,
  ⟨∀ c ∈ word.toList.head?, startsIdentifier c = true, fault .start⟩,
  ⟨∀ c ∈ word.toList.tail, continuesIdentifier c = true, fault .inside⟩]

def nameRules (path : List String) (kind name : String) : List Rule :=
  ⟨name ∉ keywords, ⟨.keyword name (contextOf kind path), some name⟩⟩ ::
    identifierRules name fun cause => ⟨.identifier name (contextOf kind path) cause, some name⟩

def qualifiedNameRules (path : List String) (kind name : String) : List Rule :=
  ⟨name ≠ "", ⟨.identifier name (contextOf kind path) .empty, none⟩⟩ ::
    (ClassName.segments name).flatMap fun segment =>
      identifierRules segment
        (fun cause => ⟨.identifier name (contextOf kind path) cause, some name⟩) ++
      [⟨segment ∉ keywords, ⟨.keyword segment (contextOf kind path), some name⟩⟩]

def templateRules (path : List String) (kind template : String) : List Rule :=
  [⟨NameTemplate.Accepted ⟨template⟩, ⟨.template template (contextOf kind path), some template⟩⟩]

def packageRules (path : List String) (type package : String) : List Rule :=
  if package = "" then []
  else
    qualifiedNameRules path "package" package ++
      [⟨∃ rest, type = package ++ "." ++ rest, ⟨.foreignPackage package type, some package⟩⟩]

def parameterRules (path : List String) (type : String) (p : ParameterDecl) : List Rule :=
  nameRules path "parameter" p.name ++ p.accessor.toList.flatMap (nameRules path "accessor") ++
    [⟨¬ Blank p.type.toList, ⟨.emptyType p.name type, some p.name⟩⟩]

def parametersRules (path : List String) (type : String) :
    List String → List ParameterDecl → List Rule
  | _, [] => []
  | seen, p :: ps =>
    parameterRules path type p ++
      ⟨p.name ∉ seen, ⟨.duplicateParameter p.name type, some p.name⟩⟩ ::
      parametersRules path type (p.name :: seen) ps

namespace TypeDecl

def kindRules (name : String) (d : TypeDecl) : List Rule := [
  ⟨d.kind = .plainClass → d.params = [], ⟨.paramsOfClass name, some name⟩⟩,
  ⟨d.kind ≠ .plainClass → d.constructors = [], ⟨.constructorsOf d.kind name, some name⟩⟩]

def checkRules (path : List String) (name : String) (d : TypeDecl) (check : String) : List Rule :=
  ⟨d.kind = .interface, ⟨.checkOf d.kind name, some check⟩⟩ :: nameRules path "check method" check

def rules (path : List String) (name : String) (d : TypeDecl) : List Rule :=
  d.package.toList.flatMap (packageRules path name) ++
  d.builder.toList.flatMap (templateRules path "builder") ++
  d.implementation.toList.flatMap (templateRules path "implementation") ++
  d.kindRules name ++
  d.check.toList.flatMap (d.checkRules path name) ++
  parametersRules path name [] d.params ++
  d.constructors.flatMap fun c => parametersRules path name [] c.params

end TypeDecl

def Manifest.rules (m : Manifest) : List Rule :=
  templateRules [] "defaults.builder" m.defaults.builder ++
  templateRules [] "defaults.implementation" m.defaults.implementation ++
  m.types.flatMap fun (name, d) => qualifiedNameRules [] "type" name ++ d.rules [name] name

end Rules

section Judgements

variable (path : List String) (kind name type : String)

theorem judges_identifier (word : String) (fault : IdentifierFault → Fault) :
    Judges (identifierRules word fault) ((identifierFault? word).map fault) := by
  have hempty : word = "" ↔ word.toList = [] := String.toList_eq_nil_iff.symm
  unfold identifierFault? identifierRules
  cases hword : word.toList with
  | nil => exact judges_violated (not_not.2 (hempty.2 hword))
  | cons c cs =>
    have hne : word ≠ "" := by simp [hempty, hword]
    simp only [apply_ite (Option.map fault), Option.map_none, Option.map_some]
    refine (judges_unless ?_ (judges_unless ?_ judges_nil)).after hne
    · simp
    · simp

theorem judges_keyword {rules : List Rule} {x : Option Fault} (word : String) (fault : Fault)
    (h : Judges rules x) :
    Judges (⟨word ∉ keywords, fault⟩ :: rules) (if isKeyword word then some fault else x) :=
  judges_if (r := ⟨word ∉ keywords, fault⟩) (by simp [isKeyword]) h

theorem judges_name : Judges (nameRules path kind name) (nameFault? path kind name) :=
  judges_keyword name _ (judges_identifier name _)

theorem judges_qualifiedName :
    Judges (qualifiedNameRules path kind name) (qualifiedNameFault? path kind name) := by
  refine judges_if not_not.symm (judges_flatMap fun segment _ => ?_)
  have hsegment := (judges_identifier segment fun cause =>
    ⟨.identifier name (contextOf kind path) cause, some name⟩).append
      (judges_keyword segment ⟨.keyword segment (contextOf kind path), some name⟩ judges_nil)
  cases hfault : identifierFault? segment <;> rw [hfault] at hsegment <;> exact hsegment

theorem judges_template (template : String) :
    Judges (templateRules path kind template) (templateFault? path kind template) :=
  judges_unless (by simp [NameTemplate.Accepted, ClassName.WellFormed]) judges_nil

theorem dotted_prefix_iff (package type : String) :
    (package.toList ++ ['.']).isPrefixOf type.toList = true ↔
      ∃ rest, type = package ++ "." ++ rest := by
  rw [List.isPrefixOf_iff_prefix]
  constructor
  · rintro ⟨rest, hrest⟩
    refine ⟨.ofList rest, String.toList_injective ?_⟩
    rw [← hrest]
    simp
  · rintro ⟨rest, rfl⟩
    refine ⟨rest.toList, ?_⟩
    rw [String.toList_append, String.toList_append]
    rfl

theorem judges_package (package : String) :
    Judges (packageRules path type package) (packageFault? path type package) := by
  unfold packageRules packageFault?
  by_cases hpackage : package = ""
  · rw [if_pos hpackage, if_pos hpackage]
    exact judges_nil
  · rw [if_neg hpackage, if_neg hpackage]
    exact (judges_qualifiedName path "package" package).append
      (judges_unless (dotted_prefix_iff package type) judges_nil)

theorem judges_parameter (p : ParameterDecl) :
    Judges (parameterRules path type p) (parameterFault? path type p) := by
  rw [parameterRules, List.append_assoc]
  refine (judges_name path "parameter" p.name).append
    ((judges_bind fun accessor _ => judges_name path "accessor" accessor).append
      (judges_if ?_ judges_nil))
  simp [Blank]

theorem judges_parameters (seen : List String) (ps : List ParameterDecl) :
    Judges (parametersRules path type seen ps) (parametersFault? path type seen ps) := by
  induction ps generalizing seen with
  | nil => exact judges_nil
  | cons p ps ih =>
    refine (judges_parameter path type p).append (judges_if ?_ (ih (p.name :: seen)))
    simp

namespace TypeDecl

variable (d : TypeDecl)

theorem judges_kind : Judges (d.kindRules name) (d.kindFault? name) := by
  unfold kindRules kindFault?
  cases hkind : d.kind with
  | plainClass =>
    exact judges_unless (by simp) (judges_nil.after fun h => absurd rfl h)
  | record => exact (judges_unless (by simp) judges_nil).after nofun
  | interface => exact (judges_unless (by simp) judges_nil).after nofun

theorem judges_check (check : String) :
    Judges (d.checkRules path name check) (d.checkFault? path name check) :=
  judges_unless Iff.rfl (judges_name path "check method" check)

theorem judges_fault : Judges (d.rules path name) (d.fault? path name) := by
  simp only [rules, List.append_assoc]
  exact (judges_bind fun package _ => judges_package path name package).append
    ((judges_bind fun builder _ => judges_template path "builder" builder).append
    ((judges_bind fun implementation _ =>
      judges_template path "implementation" implementation).append
    ((d.judges_kind name).append
    ((judges_bind fun check _ => d.judges_check path name check).append
    ((judges_parameters path name [] d.params).append
    (judges_flatMap fun c _ => judges_parameters path name [] c.params))))))

end TypeDecl

theorem Manifest.judges_fault (m : Manifest) : Judges m.rules m.fault? := by
  have htypes : Judges
      (m.types.flatMap fun (name, d) => qualifiedNameRules [] "type" name ++ d.rules [name] name)
      (m.types.findSome? fun (name, d) =>
        (qualifiedNameFault? [] "type" name).orElse fun _ => d.fault? [name] name) :=
    judges_flatMap fun (name, d) _ =>
      (judges_qualifiedName [] "type" name).append (d.judges_fault [name] name)
  rw [rules, fault?, List.append_assoc]
  exact (judges_template [] "defaults.builder" m.defaults.builder).append
    ((judges_template [] "defaults.implementation" m.defaults.implementation).append htypes)

end Judgements

def IsUnreserved (name : String) : Prop := isIdentifier name = true ∧ name ∉ keywords

def IsUnreservedPath (name : String) : Prop :=
  name ≠ "" ∧ ∀ segment ∈ ClassName.segments name, IsUnreserved segment

structure ParameterDecl.Acceptable (p : ParameterDecl) : Prop where
  name : IsUnreserved p.name
  accessor : ∀ accessor, p.accessor = some accessor → IsUnreserved accessor
  type : ¬ Blank p.type.toList

structure ParameterDecl.Compatible (ps : List ParameterDecl) : Prop where
  acceptable : ∀ p ∈ ps, p.Acceptable
  distinct : (ps.map (·.name)).Nodup

structure TypeDecl.Acceptable (name : String) (d : TypeDecl) : Prop where
  package : ∀ package, d.package = some package →
    package = "" ∨ IsUnreservedPath package ∧ ∃ rest, name = package ++ "." ++ rest
  builder : ∀ template, d.builder = some template → NameTemplate.Accepted ⟨template⟩
  implementation : ∀ template, d.implementation = some template → NameTemplate.Accepted ⟨template⟩
  params : d.kind = .plainClass → d.params = []
  constructors : d.kind ≠ .plainClass → d.constructors = []
  check : ∀ check, d.check = some check → d.kind = .interface ∧ IsUnreserved check
  components : ParameterDecl.Compatible d.params
  arguments : ∀ c ∈ d.constructors, ParameterDecl.Compatible c.params

structure Manifest.Acceptable (m : Manifest) : Prop where
  builder : NameTemplate.Accepted ⟨m.defaults.builder⟩
  implementation : NameTemplate.Accepted ⟨m.defaults.implementation⟩
  names : ∀ type ∈ m.types, IsUnreservedPath type.1
  types : ∀ type ∈ m.types, type.2.Acceptable type.1

section Acceptance

variable {path : List String} {kind name type : String} {d : TypeDecl} {m : Manifest}

theorem nameFault?_eq_none_iff : nameFault? path kind name = none ↔ IsUnreserved name := by
  unfold nameFault? IsUnreserved isKeyword isIdentifier
  by_cases hname : name ∈ keywords <;> simp [hname]

theorem isUnreservedPath_iff :
    qualifiedNameFault? path kind name = none ↔ IsUnreservedPath name := by
  rw [qualifiedNameFault?_eq_none_iff, ClassName.WellFormed, ← forall₂_and, IsUnreservedPath]
  simp only [IsUnreserved, isKeyword, List.contains_eq_mem, decide_eq_false_iff_not]
  refine ⟨fun h => ⟨?_, h⟩, fun h => h.2⟩
  rintro rfl
  exact absurd (h "" (by decide)).1 (by decide)

theorem packageFault?_eq_none_iff {package : String} :
    packageFault? path type package = none ↔
      package = "" ∨ IsUnreservedPath package ∧ ∃ rest, type = package ++ "." ++ rest := by
  unfold packageFault?
  by_cases hpackage : package = ""
  · simp [hpackage]
  · rw [if_neg hpackage, Option.orElse_eq_or, Option.or_eq_none_iff,
      isUnreservedPath_iff, ← dotted_prefix_iff]
    simp [hpackage]

theorem parameterFault?_eq_none_iff {p : ParameterDecl} :
    parameterFault? path type p = none ↔ p.Acceptable := by
  simp only [parameterFault?, Option.orElse_eq_or, Option.or_eq_none_iff, Option.bind_eq_none_iff,
    nameFault?_eq_none_iff]
  constructor
  · rintro ⟨hname, haccessor, htype⟩
    exact ⟨hname, haccessor, by simpa [Blank] using htype⟩
  · rintro ⟨hname, haccessor, htype⟩
    exact ⟨hname, haccessor, by simpa [Blank] using htype⟩

theorem compatible_cons {p : ParameterDecl} {ps : List ParameterDecl} :
    ParameterDecl.Compatible (p :: ps) ↔
      p.Acceptable ∧ (∀ q ∈ ps, q.name ≠ p.name) ∧ ParameterDecl.Compatible ps := by
  constructor
  · rintro ⟨hformed, hdistinct⟩
    rw [List.map_cons, List.nodup_cons] at hdistinct
    obtain ⟨hp, hps⟩ := List.forall_mem_cons.1 hformed
    exact ⟨hp, fun q hq hname => hdistinct.1 (hname ▸ List.mem_map_of_mem hq), hps, hdistinct.2⟩
  · rintro ⟨hp, hname, hformed, hdistinct⟩
    refine ⟨List.forall_mem_cons.2 ⟨hp, hformed⟩, ?_⟩
    rw [List.map_cons, List.nodup_cons]
    refine ⟨fun hmem => ?_, hdistinct⟩
    obtain ⟨q, hq, heq⟩ := List.mem_map.1 hmem
    exact hname q hq heq

theorem parametersFault?_eq_none_iff {seen : List String} {ps : List ParameterDecl} :
    parametersFault? path type seen ps = none ↔
      ParameterDecl.Compatible ps ∧ ∀ p ∈ ps, p.name ∉ seen := by
  induction ps generalizing seen with
  | nil => exact iff_of_true rfl ⟨⟨List.forall_mem_nil _, List.nodup_nil⟩, List.forall_mem_nil _⟩
  | cons p ps ih =>
    rw [parametersFault?, Option.orElse_eq_or, Option.or_eq_none_iff, parameterFault?_eq_none_iff,
      compatible_cons, List.forall_mem_cons]
    by_cases hseen : p.name ∈ seen
    · simp [hseen]
    · rw [if_neg (by simpa using hseen), ih]
      simp only [List.mem_cons, not_or]
      grind

theorem kindFault?_eq_none_iff :
    d.kindFault? name = none ↔
      (d.kind = .plainClass → d.params = []) ∧ (d.kind ≠ .plainClass → d.constructors = []) := by
  unfold TypeDecl.kindFault?
  cases d.kind <;> simp

theorem checkFault?_eq_none_iff {check : String} :
    d.checkFault? path name check = none ↔ d.kind = .interface ∧ IsUnreserved check := by
  unfold TypeDecl.checkFault?
  by_cases hkind : d.kind = .interface <;> simp [hkind, nameFault?_eq_none_iff]

theorem typeFault?_eq_none_iff : d.fault? path name = none ↔ d.Acceptable name := by
  simp only [TypeDecl.fault?, Option.orElse_eq_or, Option.or_eq_none_iff, Option.bind_eq_none_iff,
    List.findSome?_eq_none_iff, packageFault?_eq_none_iff, templateFault?_eq_none_iff,
    kindFault?_eq_none_iff, checkFault?_eq_none_iff, parametersFault?_eq_none_iff]
  constructor
  · rintro ⟨hpackage, hbuilder, himplementation, ⟨hparams, hconstructors⟩, hcheck, hcomponents,
      harguments⟩
    exact ⟨hpackage, hbuilder, himplementation, hparams, hconstructors, hcheck, hcomponents.1,
      fun c hc => (harguments c hc).1⟩
  · intro h
    have hunseen (p : ParameterDecl) : p.name ∉ [] := List.not_mem_nil
    exact ⟨h.package, h.builder, h.implementation, ⟨h.params, h.constructors⟩, h.check,
      ⟨h.components, fun p _ => hunseen p⟩, fun c hc => ⟨h.arguments c hc, fun p _ => hunseen p⟩⟩

theorem Manifest.fault?_eq_none_iff : m.fault? = none ↔ m.Acceptable := by
  simp only [Manifest.fault?, Option.orElse_eq_or, Option.or_eq_none_iff,
    List.findSome?_eq_none_iff, templateFault?_eq_none_iff, isUnreservedPath_iff,
    typeFault?_eq_none_iff]
  constructor
  · rintro ⟨hbuilder, himplementation, htypes⟩
    exact ⟨hbuilder, himplementation, fun t ht => (htypes t ht).1, fun t ht => (htypes t ht).2⟩
  · rintro ⟨hbuilder, himplementation, hnames, htypes⟩
    exact ⟨hbuilder, himplementation, fun t ht => ⟨hnames t ht, htypes t ht⟩⟩

end Acceptance

/-- Only an acceptable manifest follows all rules, and it alone is accepted; any other is refused
with the fault of the first rule that it violates. -/
theorem Manifest.validate_first_violation (m : Manifest) (file text : String) :
    (m.validate file text = .ok () ↔ m.Acceptable) ∧
    (m.Acceptable ↔ ∀ r ∈ m.rules, r.Holds) ∧
    ∀ e, m.validate file text = .error e ↔
      ∃ f, FirstViolation m.rules f ∧ e = .invalid file f (f.span? text) := by
  have hformed : m.Acceptable ↔ ∀ r ∈ m.rules, r.Holds :=
    fault?_eq_none_iff.symm.trans m.judges_fault.none_iff
  refine ⟨?_, hformed, fun e => ?_⟩
  · rw [← fault?_eq_none_iff, Manifest.validate]
    cases m.fault? <;> simp
  · rw [Manifest.validate_eq_error_iff]
    simp only [m.judges_fault.some_iff]

end StagedBuilder
