import StagedBuilder.Proofs.MethodLaws

namespace StagedBuilder.Builder

open Java

structure Sets (s : SupportClasses) (p : Parameter) (m : Method) : Prop where
  isPublic : m.isPublic = true
  isStatic : m.isStatic = false
  name : m.name = p.name
  formals : m.formals = [p.formal s]

/-- The parameter has a setter wherever values are collected. -/
structure HasSetters (s : SupportClasses) (b : Builder) (p : Parameter) : Prop where
  outside : b.shape ≠ .factory → (∃ m ∈ (b.unit s).methods, Sets s p m) ∨
    ∃ c ∈ b.stagesFrom s b.mandatory, c ∈ (b.unit s).nestedClasses ∧ ∃ m ∈ c.methods, Sets s p m
  copy : b.emitsCopy = true →
    b.copyClass s ∈ (b.unit s).nestedClasses ∧ ∃ m ∈ (b.copyClass s).methods, Sets s p m

section Sites

variable {s : SupportClasses} {b : Builder} {p : Parameter}

theorem sets_setter (notice : Notice) (site : Site) : Sets s p (setter s p notice site) :=
  ⟨rfl, rfl, rfl, rfl⟩

theorem exists_sets_mandatory (site : Site) : ∃ m ∈ mandatorySetters s p site, Sets s p m :=
  ⟨_, List.mem_append_right _ (List.mem_singleton.2 rfl), sets_setter .mandatory site⟩

theorem exists_sets_fluent {ps : List Parameter} (hp : p ∈ ps) (site : Site) :
    ∃ m ∈ ps.flatMap fun p => fluentSetters s p site, Sets s p m :=
  ⟨_, List.mem_flatMap.2 ⟨p, hp, List.mem_append_right _ (List.mem_singleton.2 rfl)⟩,
    sets_setter _ site⟩

theorem exists_sets_flat (h : b.shape = .flat) (hp : p ∈ b.params) :
    ∃ m ∈ (b.unit s).methods, Sets s p m := by
  obtain ⟨m, hmem, hm⟩ := exists_sets_fluent (s := s) hp (fluentSite .this b.simpleName)
  refine ⟨m, ?_, hm⟩
  rw [methods_flat h, flatMethods]
  simp [hmem]

theorem exists_sets_first (h : b.shape = .staged) {rest : List Parameter}
    (hmandatory : b.mandatory = p :: rest) : ∃ m ∈ (b.unit s).methods, Sets s p m := by
  obtain ⟨m, hmem, hm⟩ := exists_sets_mandatory (s := s) (p := p) (nextSite .this p)
  refine ⟨m, ?_, hm⟩
  rw [methods_staged h, stagedMethods, hmandatory]
  simp [hmem]

theorem exists_sets_waiting {earlier later : List Parameter} {current : Parameter}
    (hmandatory : b.mandatory = earlier ++ current :: p :: later) :
    ∃ c ∈ b.stagesFrom s b.mandatory, ∃ m ∈ c.methods, Sets s p m := by
  obtain ⟨next, methods, heq, -⟩ := exists_waitingMethods_eq (s := s) hmandatory
  obtain ⟨m, hmem, hm⟩ := exists_sets_mandatory (s := s) (p := p) ⟨.name root, next⟩
  obtain ⟨stages, hstages⟩ := stagesFrom_append (s := s) (b := b) earlier current (p :: later)
  rw [hmandatory, hstages, stagesFrom]
  refine ⟨b.stage current (waitingMethods s b current p later.isEmpty), by simp, m, ?_, hm⟩
  rw [stage, heq]
  simp [hmem]

theorem exists_sets_optional {earlier : List Parameter} {last : Parameter}
    (hmandatory : b.mandatory = earlier ++ [last]) (hp : p ∈ b.optional) :
    ∃ c ∈ b.stagesFrom s b.mandatory, ∃ m ∈ c.methods, Sets s p m := by
  have ho : ¬ b.optional.isEmpty = true := by simpa using List.ne_nil_of_mem hp
  obtain ⟨m, hmem, hm⟩ :=
    exists_sets_fluent (s := s) hp (fluentSite (.name root) (stageName last.name))
  obtain ⟨stages, hstages⟩ := stagesFrom_append (s := s) (b := b) earlier last []
  rw [hmandatory, hstages, stagesFrom, if_neg ho]
  refine ⟨b.stage last (optionalMethods s b last), by simp, m, ?_, hm⟩
  rw [stage, optionalMethods]
  simp [hmem]

theorem exists_sets (hshape : b.shape ≠ .factory) (hp : p ∈ b.params) :
    (∃ m ∈ (b.unit s).methods, Sets s p m) ∨
      ∃ c ∈ b.stagesFrom s b.mandatory, ∃ m ∈ c.methods, Sets s p m := by
  cases h : b.shape with
  | flat => exact .inl (exists_sets_flat h hp)
  | factory => exact absurd h hshape
  | staged =>
    by_cases hmem : p ∈ b.mandatory
    · obtain ⟨before, later, hsplit⟩ := List.append_of_mem hmem
      rcases List.eq_nil_or_concat before with rfl | ⟨earlier, current, rfl⟩
      · exact .inl (exists_sets_first h hsplit)
      · exact .inr (exists_sets_waiting (by simpa using hsplit))
    · obtain ⟨first, rest, hmandatory, -⟩ := mandatory_of_staged h
      have hlast := (List.dropLast_append_getLast (hmandatory ▸ List.cons_ne_nil first rest)).symm
      have hoptional : p ∈ b.optional := by
        rw [mandatory, List.mem_filter, not_and, Bool.not_eq_true] at hmem
        exact List.mem_filter.2 ⟨hp, by rw [hmem hp]; rfl⟩
      exact .inr (exists_sets_optional hlast hoptional)

theorem copyClass_mem (hcopy : b.emitsCopy = true) :
    b.copyClass s ∈ (b.unit s).nestedClasses := by
  rw [nestedClasses_unit, if_pos hcopy, List.mem_append]
  exact .inr (List.mem_singleton.2 rfl)

theorem exists_sets_copy (hp : p ∈ b.params) : ∃ m ∈ (b.copyClass s).methods, Sets s p m := by
  obtain ⟨m, hmem, hm⟩ := exists_sets_fluent (s := s) hp (fluentSite .this copyName)
  exact ⟨m, by simp [copyClass, hmem], hm⟩

theorem hasSetters (hp : p ∈ b.params) : HasSetters s b p where
  outside hshape := by
    refine (exists_sets hshape hp).imp id ?_
    rintro ⟨c, hc, hsets⟩
    refine ⟨c, hc, ?_, hsets⟩
    rw [nestedClasses_unit]
    exact List.mem_append_left _ hc
  copy hcopy := ⟨copyClass_mem hcopy, exists_sets_copy hp⟩

end Sites

end StagedBuilder.Builder
