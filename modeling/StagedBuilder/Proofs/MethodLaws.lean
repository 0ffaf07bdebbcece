import StagedBuilder.Proofs.StageLaws

namespace StagedBuilder.Builder

open Java

def Declares (b : Builder) (type : String) : Prop :=
  type = b.simpleName ∨ type ∈ b.stageNames ∨ b.emitsCopy = true ∧ type = copyName

inductive Goes (b : Builder) (owner : Expr) : Continuation → Prop
  | stays {type : String} (description : String) (declared : b.Declares type) :
      Goes b owner ⟨.written type, .this, description⟩
  | advances {p : Parameter} (stage : stageName p.name ∈ b.stageNames) :
      Goes b owner (nextSite owner p).next
  | builds (inStage : owner = .name root) : Goes b owner b.builtSite.next

inductive Offered (s : SupportClasses) (b : Builder) (owner : Expr) : Method → Prop
  | setter {p : Parameter} {next : Continuation} (notice : Notice) (known : p ∈ b.params)
      (goes : Goes b owner next) : Offered s b owner (setter s p notice ⟨owner, next⟩)
  | innerSetter {p : Parameter} {next : Continuation} {inner : TypeExpr} (known : p ∈ b.params)
      (goes : Goes b owner next) (wraps : p.wrapped? = some inner) :
      Offered s b owner (innerSetter s p optionalClass inner ⟨owner, next⟩)
  | accessor {p : Parameter} {next : Continuation} {c : Collection} (elements : List TypeExpr)
      (known : p ∈ b.params) (goes : Goes b owner next) (collects : p.type.collection? = some c) :
      Offered s b owner (accessor s p c elements ⟨owner, next⟩)
  | build (isPublic : Bool) (inRoot : owner = .this) : Offered s b owner (b.buildMethod s isPublic)
  | delegatedBuild (inStage : owner = .name root) : Offered s b owner b.delegatedBuild

inductive Outer (s : SupportClasses) (b : Builder) : Method → Prop
  | hidden : Outer s b b.hiddenConstructor
  | creator {m : Method} (shape : b.shape ≠ .factory) (mem : m ∈ b.creators) : Outer s b m
  | offered {m : Method} (shape : b.shape ≠ .factory) (offered : Offered s b .this m) : Outer s b m
  | factory {p : Parameter} (shape : b.shape = .factory) (known : p ∈ b.params) :
      Outer s b (b.factoryMethod s p)
  | copy (emits : b.emitsCopy = true) : Outer s b (b.copyMethod s)

section Classes

variable {s : SupportClasses} {b : Builder} {p : Parameter} {owner : Expr} {next : Continuation}
  {m : Method} {c : NestedClass}

theorem mem_params_of_mandatory (h : p ∈ b.mandatory) : p ∈ b.params := List.mem_of_mem_filter h

theorem mem_params_of_optional (h : p ∈ b.optional) : p ∈ b.params := List.mem_of_mem_filter h

theorem eq_of_mem_creators (hm : m ∈ b.creators) :
    m = b.creator "builder" (.call (.constructor (.written b.simpleName)) []) ∨
      m = b.creator "create" (.call (.method .implicit "builder") []) := by
  rw [creators, List.mem_cons] at hm
  cases hm with
  | inl hm => exact .inl hm
  | inr hm =>
    split_ifs at hm
    · cases hm
    · exact .inr (List.mem_singleton.1 hm)

theorem Offered.result (h : Offered s b owner m) : m.result.isSome = true := by
  cases h with
  | setter => rfl
  | innerSetter => rfl
  | accessor => rfl
  | build => rfl
  | delegatedBuild => rfl

theorem Offered.isStatic (h : Offered s b owner m) : m.isStatic = false := by
  cases h with
  | setter => rfl
  | innerSetter => rfl
  | accessor => rfl
  | build => rfl
  | delegatedBuild => rfl

theorem Outer.formals (h : Outer s b m) (hresult : m.result = none) : m.formals = [] := by
  cases h with
  | hidden => rfl
  | creator shape mem =>
    cases eq_of_mem_creators mem with
    | inl hm => rw [hm]; rfl
    | inr hm => rw [hm]; rfl
  | offered shape offered =>
    have hsome := offered.result
    rw [hresult] at hsome
    cases hsome
  | factory => cases hresult
  | copy => cases hresult

theorem offered_of_collector (hp : p ∈ b.params) (hnext : Goes b owner next)
    (hm : m ∈ collector s p ⟨owner, next⟩) : Offered s b owner m := by
  obtain ⟨c, elements, hc, rfl⟩ := eq_of_mem_collector hm
  exact .accessor elements hp hnext hc

theorem offered_of_mandatorySetters (hp : p ∈ b.params) (hnext : Goes b owner next)
    (hm : m ∈ mandatorySetters s p ⟨owner, next⟩) : Offered s b owner m := by
  rw [mandatorySetters, List.mem_append, List.mem_singleton] at hm
  cases hm with
  | inl hm => exact offered_of_collector hp hnext hm
  | inr hm =>
    rw [hm]
    exact .setter .mandatory hp hnext

theorem offered_of_fluentSetters {ps : List Parameter} (hps : ∀ p ∈ ps, p ∈ b.params)
    (hnext : Goes b owner next) (hm : m ∈ ps.flatMap fun p => fluentSetters s p ⟨owner, next⟩) :
    Offered s b owner m := by
  obtain ⟨p, hp, hm⟩ := List.mem_flatMap.1 hm
  rw [fluentSetters, List.mem_append, List.mem_append, List.mem_singleton] at hm
  rcases hm with (hm | hm) | hm
  · obtain ⟨inner, hw, rfl⟩ := eq_of_mem_valueSetter hm
    exact .innerSetter (hps p hp) hnext hw
  · exact offered_of_collector (hps p hp) hnext hm
  · rw [hm]
    exact .setter _ (hps p hp) hnext

theorem exists_waitingMethods_eq {before rest : List Parameter} {current waited : Parameter}
    (hmandatory : b.mandatory = before ++ current :: waited :: rest) :
    ∃ next methods, waitingMethods s b current waited rest.isEmpty =
        mandatorySetters s waited ⟨.name root, next⟩ ++ methods ∧
      Goes b (.name root) next ∧ ∀ m ∈ methods, m = b.delegatedBuild := by
  have hcurrent : stageName current.name ∈ b.stageNames :=
    stageName_mem hmandatory (.inl (List.cons_ne_nil _ _))
  unfold waitingMethods
  split_ifs with hlast halways
  · exact ⟨_, [b.delegatedBuild], rfl, .stays _ (.inr (.inl hcurrent)), by simp⟩
  · exact ⟨_, [], (List.append_nil _).symm, .builds rfl, List.forall_mem_nil _⟩
  · have hmore : rest ≠ [] ∨ b.optional ≠ [] := by
      rw [← not_and_or]
      simpa using hlast
    have hsplit : b.mandatory = (before ++ [current]) ++ waited :: rest := by simp [hmandatory]
    exact ⟨_, [], (List.append_nil _).symm, .advances (stageName_mem hsplit hmore),
      List.forall_mem_nil _⟩

theorem offered_of_waitingMethods {before rest : List Parameter} {current waited : Parameter}
    (hmandatory : b.mandatory = before ++ current :: waited :: rest)
    (hm : m ∈ waitingMethods s b current waited rest.isEmpty) : Offered s b (.name root) m := by
  have hwaited : waited ∈ b.params := by
    apply mem_params_of_mandatory
    rw [hmandatory]
    simp
  obtain ⟨next, methods, heq, hgoes, hmethods⟩ := exists_waitingMethods_eq (s := s) hmandatory
  rw [heq, List.mem_append] at hm
  cases hm with
  | inl hm => exact offered_of_mandatorySetters hwaited hgoes hm
  | inr hm => exact hmethods m hm ▸ .delegatedBuild rfl

theorem offered_of_optionalMethods {before : List Parameter} {last : Parameter}
    (hmandatory : b.mandatory = before ++ [last]) (ho : b.optional ≠ [])
    (hm : m ∈ optionalMethods s b last) : Offered s b (.name root) m := by
  have hlast : stageName last.name ∈ b.stageNames := stageName_mem hmandatory (.inr ho)
  rw [optionalMethods, List.mem_append, List.mem_singleton] at hm
  cases hm with
  | inl hm =>
    exact offered_of_fluentSetters (fun p => mem_params_of_optional)
      (.stays _ (.inr (.inl hlast))) hm
  | inr hm =>
    rw [hm]
    exact .delegatedBuild rfl

theorem cases_stage {before rest : List Parameter} (hmandatory : b.mandatory = before ++ rest)
    (hc : c ∈ b.stagesFrom s rest) :
    (∃ earlier current waited later, b.mandatory = earlier ++ current :: waited :: later ∧
      c = b.stage current (waitingMethods s b current waited later.isEmpty)) ∨
    ∃ earlier last, b.mandatory = earlier ++ [last] ∧ b.optional ≠ [] ∧
      c = b.stage last (optionalMethods s b last) := by
  induction rest generalizing before with
  | nil => cases hc
  | cons current rest ih =>
    cases rest with
    | nil =>
      rw [stagesFrom] at hc
      split_ifs at hc with ho
      · cases hc
      · exact .inr ⟨before, current, hmandatory, by simpa using ho, List.mem_singleton.1 hc⟩
    | cons waited rest =>
      rw [stagesFrom, List.mem_cons] at hc
      cases hc with
      | inl hc => exact .inl ⟨before, current, waited, rest, hmandatory, hc⟩
      | inr hc =>
        have hsplit : b.mandatory = (before ++ [current]) ++ waited :: rest := by simp [hmandatory]
        exact ih hsplit hc

theorem eq_stage_of_mem {before rest : List Parameter} (hmandatory : b.mandatory = before ++ rest)
    (hc : c ∈ b.stagesFrom s rest) :
    ∃ p methods, c = b.stage p methods ∧ ∀ m ∈ methods, Offered s b (.name root) m := by
  rcases cases_stage hmandatory hc with ⟨earlier, current, waited, later, hsplit, rfl⟩ |
    ⟨earlier, last, hsplit, ho, rfl⟩
  · exact ⟨_, _, rfl, fun m => offered_of_waitingMethods hsplit⟩
  · exact ⟨_, _, rfl, fun m => offered_of_optionalMethods hsplit ho⟩

theorem offered_concat_build {setters : List Method} (isPublic : Bool)
    (hsetters : ∀ m ∈ setters, Offered s b .this m) :
    ∀ m ∈ setters ++ [b.buildMethod s isPublic], Offered s b .this m := by
  rw [List.forall_mem_append]
  refine ⟨hsetters, ?_⟩
  intro m hm
  rw [List.mem_singleton.1 hm]
  exact .build isPublic rfl

theorem methods_copyClass (hcopy : b.emitsCopy = true) :
    ∃ setters, (b.copyClass s).methods =
        b.copyConstructor :: (setters ++ [b.buildMethod s true]) ∧
      ∀ m ∈ setters, Offered s b .this m := by
  refine ⟨b.params.flatMap fun p => fluentSetters s p (fluentSite .this copyName), rfl, ?_⟩
  intro m hm
  exact offered_of_fluentSetters (fun p hp => hp) (.stays _ (.inr (.inr ⟨hcopy, rfl⟩))) hm

theorem methods_of_not_factory (hshape : b.shape ≠ .factory) :
    ∃ setters isPublic, (b.unit s).methods =
        b.hiddenConstructor :: b.creators ++ (setters ++ [b.buildMethod s isPublic]) ++
          (if b.emitsCopy then [b.copyMethod s] else []) ∧
      ∀ m ∈ setters, Offered s b .this m := by
  cases h : b.shape with
  | flat =>
    refine ⟨b.params.flatMap fun p => fluentSetters s p (fluentSite .this b.simpleName), true,
      ?_, ?_⟩
    · rw [methods_flat h, flatMethods, List.append_assoc (b.hiddenConstructor :: b.creators)]
    · intro m hm
      exact offered_of_fluentSetters (fun p hp => hp) (.stays _ (.inl rfl)) hm
  | factory => exact absurd h hshape
  | staged =>
    obtain ⟨first, rest, hmandatory, hmore⟩ := mandatory_of_staged h
    have hfirst : first ∈ b.params := by
      apply mem_params_of_mandatory
      rw [hmandatory]
      exact List.mem_cons_self
    have hsplit : b.mandatory = [] ++ first :: rest := hmandatory
    refine ⟨mandatorySetters s first (nextSite .this first), false, ?_, ?_⟩
    · rw [methods_staged h, stagedMethods, hmandatory,
        List.append_assoc (b.hiddenConstructor :: b.creators)]
      rfl
    · intro m hm
      exact offered_of_mandatorySetters hfirst (.advances (stageName_mem hsplit hmore)) hm

theorem outer_of_copy (hm : m ∈ if b.emitsCopy then [b.copyMethod s] else []) : Outer s b m := by
  split_ifs at hm with hcopy
  · rw [List.mem_singleton.1 hm]
    exact .copy hcopy
  · cases hm

theorem outer_of_mem (hm : m ∈ (b.unit s).methods) : Outer s b m := by
  by_cases hshape : b.shape = .factory
  · rw [methods_factory hshape, List.mem_append, List.mem_cons, List.mem_map] at hm
    rcases hm with (hm | ⟨p, hp, rfl⟩) | hm
    · rw [hm]
      exact .hidden
    · exact .factory hshape hp
    · exact outer_of_copy hm
  · obtain ⟨setters, isPublic, heq, hsetters⟩ := methods_of_not_factory (s := s) hshape
    rw [heq, List.mem_append, List.mem_append, List.mem_cons] at hm
    rcases hm with ((hm | hm) | hm) | hm
    · rw [hm]
      exact .hidden
    · exact .creator hshape hm
    · exact .offered hshape (offered_concat_build isPublic hsetters m hm)
    · exact outer_of_copy hm

theorem offered_of_outer (hm : Outer s b m) (hpublic : m.isPublic = true)
    (hinstance : m.isStatic = false) : Offered s b .this m := by
  cases hm with
  | hidden => cases hpublic
  | creator shape mem =>
    cases eq_of_mem_creators mem with
    | inl hm =>
      rw [hm] at hinstance
      cases hinstance
    | inr hm =>
      rw [hm] at hinstance
      cases hinstance
  | offered shape offered => exact offered
  | factory => cases hinstance
  | copy => cases hinstance

theorem offered_of_public {constructor : Method} {methods : List Method}
    (hmethods : ∀ m ∈ methods, Offered s b owner m) (hprivate : constructor.isPublic = false)
    (hm : m ∈ constructor :: methods) (hpublic : m.isPublic = true) : Offered s b owner m := by
  rw [List.mem_cons] at hm
  cases hm with
  | inl hm =>
    rw [hm, hprivate] at hpublic
    cases hpublic
  | inr hm => exact hmethods m hm

theorem offered_of_stage (hc : c ∈ b.stagesFrom s b.mandatory) (hm : m ∈ c.methods)
    (hpublic : m.isPublic = true) : Offered s b (.name root) m := by
  obtain ⟨p, methods, rfl, hmethods⟩ := eq_stage_of_mem (List.nil_append _).symm hc
  exact offered_of_public hmethods rfl hm hpublic

theorem offered_of_copy (hcopy : b.emitsCopy = true) (hm : m ∈ (b.copyClass s).methods)
    (hpublic : m.isPublic = true) : Offered s b .this m := by
  obtain ⟨setters, heq, hsetters⟩ := methods_copyClass (s := s) hcopy
  rw [heq] at hm
  exact offered_of_public (offered_concat_build true hsetters) rfl hm hpublic

inductive Written (s : SupportClasses) (b : Builder) : Method → Prop
  | outer {m : Method} (outer : Outer s b m) : Written s b m
  | offered {owner : Expr} {m : Method} (offered : Offered s b owner m) : Written s b m
  | stageConstructor (p : Parameter) : Written s b (b.stageConstructor p)
  | copyConstructor (emits : b.emitsCopy = true) : Written s b b.copyConstructor

theorem written_of_nested (hc : c ∈ (b.unit s).nestedClasses) (hm : m ∈ c.methods) :
    Written s b m := by
  rw [nestedClasses_unit, List.mem_append, List.mem_ite_nil_right, List.mem_singleton] at hc
  rcases hc with hc | ⟨hcopy, rfl⟩
  · obtain ⟨p, methods, rfl, hmethods⟩ := eq_stage_of_mem (List.nil_append _).symm hc
    cases List.mem_cons.1 hm with
    | inl hm => exact hm ▸ .stageConstructor p
    | inr hm => exact .offered (hmethods m hm)
  · obtain ⟨setters, heq, hsetters⟩ := methods_copyClass (s := s) hcopy
    rw [heq] at hm
    cases List.mem_cons.1 hm with
    | inl hm => exact hm ▸ .copyConstructor hcopy
    | inr hm => exact .offered (offered_concat_build true hsetters m hm)

theorem written_of_mem
    (hm : m ∈ (b.unit s).methods ++ (b.unit s).nestedClasses.flatMap (·.methods)) :
    Written s b m := by
  rw [List.mem_append, List.mem_flatMap] at hm
  rcases hm with hm | ⟨c, hc, hm⟩
  · exact .outer (outer_of_mem hm)
  · exact written_of_nested hc hm

end Classes

section Constructors

variable {s : SupportClasses} {b : Builder} {owner : Expr}

end Constructors

end StagedBuilder.Builder
