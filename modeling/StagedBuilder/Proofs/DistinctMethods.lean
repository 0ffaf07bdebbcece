import Mathlib.Data.List.Perm.Basic
import StagedBuilder.Identifier
import StagedBuilder.Proofs.ErasureLaws
import StagedBuilder.Proofs.ObjectLaws

namespace StagedBuilder

namespace Java

variable {α : Type} (key : TypeRef → α)

def Method.signature? (m : Method) : Option (String × List α) :=
  m.result.map fun _ => (m.name, m.formals.map fun f => key f.type.erased)

def signatures (ms : List Method) : List (String × List α) := ms.filterMap (·.signature? key)

theorem signatures_append (ms ms' : List Method) :
    signatures key (ms ++ ms') = signatures key ms ++ signatures key ms' := List.filterMap_append

end Java

namespace Builder

open Java

section Setters

variable {α : Type} (key : TypeRef → α) {s : SupportClasses} {p : Parameter} {site : Site}

def argumentTypes (p : Parameter) : List TypeRef :=
  p.wrapped?.toList.map (fun inner => (unboxed inner).1) ++ [p.typeRef]

def settings (p : Parameter) : List (String × List α) :=
  (if p.type.collection?.isSome then [(p.name, [])] else []) ++
    (argumentTypes p).map fun t => (p.name, [key t.erased])

theorem wrapped?_of_mandatory (h : p.isMandatory = true) : p.wrapped? = none := by
  rw [Parameter.isMandatory, Parameter.absence, decide_eq_true_iff] at h
  split_ifs at h with hwrapped
  simpa using hwrapped

theorem signatures_valueSetter :
    signatures key (valueSetter s p site) =
      p.wrapped?.toList.map fun inner => (p.name, [key (unboxed inner).1.erased]) := by
  cases ht : p.type with
  | verbatim => simp [valueSetter, Parameter.wrapped?, ht, signatures, DeclaredType.wrapped?]
  | parsed t =>
    cases hw : p.wrapped? <;>
      simp [valueSetter, innerSetter, ht, hw, signatures, Method.signature?]

theorem signatures_collector :
    signatures key (collector s p site) =
      if p.type.collection?.isSome then [(p.name, [])] else [] := by
  cases ht : p.type with
  | verbatim => simp [collector, ht, signatures, DeclaredType.collection?]
  | parsed t =>
    cases hc : t.collection? <;>
      simp [collector, accessor, ht, hc, signatures, Method.signature?, DeclaredType.collection?]

theorem signatures_fluentSetters :
    (signatures key (fluentSetters s p site)).Perm (settings key p) := by
  rw [fluentSetters, signatures_append, signatures_append, signatures_valueSetter,
    signatures_collector, settings, argumentTypes, List.map_append, List.map_map,
    ← List.append_assoc]
  exact List.perm_append_comm.append_right _

theorem signatures_mandatorySetters (h : p.isMandatory = true) :
    signatures key (mandatorySetters s p site) = settings key p := by
  rw [mandatorySetters, signatures_append, signatures_collector, settings, argumentTypes,
    wrapped?_of_mandatory h]
  rfl

theorem nullary_mem_settings_iff {name : String} :
    (name, []) ∈ settings key p ↔ p.type.collection?.isSome = true ∧ p.name = name := by
  simp only [settings, List.mem_append, List.mem_ite_nil_right, List.mem_singleton, List.mem_map,
    Prod.mk.injEq, and_true, List.cons_ne_nil, and_false, exists_false, or_false]
  exact and_congr_right fun _ => eq_comm

theorem unary_mem_settings_iff {name : String} {k : α} :
    (name, [k]) ∈ settings key p ↔ p.name = name ∧ ∃ t ∈ argumentTypes p, key t.erased = k := by
  simp [settings]
  tauto

theorem name_of_mem_settings {x : String × List α} (h : x ∈ settings key p) : x.1 = p.name := by
  rw [settings, List.mem_append, List.mem_ite_nil_right, List.mem_singleton, List.mem_map] at h
  rcases h with ⟨-, rfl⟩ | ⟨t, -, rfl⟩
  · rfl
  · rfl

def ArgumentsApart (p : Parameter) : Prop :=
  ((argumentTypes p).map fun t => key t.erased).Nodup

theorem argumentsApart_of_mandatory (h : p.isMandatory = true) : ArgumentsApart key p := by
  rw [ArgumentsApart, argumentTypes, wrapped?_of_mandatory h]
  exact List.nodup_singleton _

theorem nodup_settings_iff : (settings key p).Nodup ↔ ArgumentsApart key p := by
  have hunary : ((argumentTypes p).map fun t => (p.name, [key t.erased])).Nodup ↔
      ArgumentsApart key p := by
    have hinj : Function.Injective fun k : α => (p.name, [k]) := by
      intro k k' heq
      simpa using heq
    rw [ArgumentsApart, ← List.nodup_map_iff hinj, List.map_map]
    rfl
  rw [settings, List.nodup_append', hunary]
  refine ⟨fun h => h.2.1, fun h => ⟨?_, h, ?_⟩⟩
  · split_ifs
    · exact List.nodup_singleton _
    · exact List.nodup_nil
  · intro x hx hmem
    rw [List.mem_ite_nil_right, List.mem_singleton] at hx
    rw [hx.2, List.mem_map] at hmem
    obtain ⟨t, -, ht⟩ := hmem
    cases ht

def SetApart (fixed : List (String × List α)) (p : Parameter) : Prop :=
  ArgumentsApart key p ∧ ∀ x ∈ fixed, x ∉ settings key p

theorem nodup_class_iff {fixed found : List (String × List α)} {ps : List Parameter}
    (hperm : found.Perm (fixed ++ ps.flatMap (settings key))) (hfixed : fixed.Nodup)
    (hnames : (ps.map (·.name)).Nodup) : found.Nodup ↔ ∀ p ∈ ps, SetApart key fixed p := by
  -- methods of two parameters are told apart by their names
  have hpairs : ps.Pairwise fun p q => (settings key p).Disjoint (settings key q) := by
    refine (List.pairwise_map.1 hnames).imp fun {p q} hne x hp hq => ?_
    exact hne ((name_of_mem_settings key hp).symm.trans (name_of_mem_settings key hq))
  rw [hperm.nodup_iff, List.nodup_append', List.nodup_flatMap]
  simp only [nodup_settings_iff]
  constructor
  · rintro ⟨-, ⟨hapart, -⟩, hdisjoint⟩ p hp
    exact ⟨hapart p hp, fun x hx hmem => hdisjoint hx (List.mem_flatMap.2 ⟨p, hp, hmem⟩)⟩
  · intro h
    refine ⟨hfixed, ⟨fun p hp => (h p hp).1, hpairs⟩, ?_⟩
    intro x hx hmem
    obtain ⟨p, hp, hmem⟩ := List.mem_flatMap.1 hmem
    exact (h p hp).2 x hx hmem

end Setters

section Classes

variable {α : Type} (key : TypeRef → α) {s : SupportClasses} {b : Builder}

def outerSignatures (b : Builder) : List (String × List α) :=
  b.creators.map (fun m => (m.name, [])) ++ ("build", []) ::
    if b.emitsCopy then [("copy", [key (.reference b.target)])] else []

theorem name_of_mem_creators {m : Method} (hm : m ∈ b.creators) :
    m.name = "builder" ∨ m.name = "create" := by
  cases eq_of_mem_creators hm with
  | inl hm => exact .inl (hm ▸ rfl)
  | inr hm => exact .inr (hm ▸ rfl)

theorem nodup_outerSignatures : (outerSignatures key b).Nodup := by
  unfold outerSignatures creators
  split_ifs <;> simp [creator]

theorem signatures_creators :
    signatures key (b.hiddenConstructor :: b.creators) =
      b.creators.map fun m => (m.name, []) := by
  unfold creators
  split_ifs
  · rfl
  · rfl

theorem signatures_copyMethod :
    signatures key (if b.emitsCopy then [b.copyMethod s] else []) =
      if b.emitsCopy then [("copy", [key (.reference b.target)])] else [] := by
  split_ifs
  · rfl
  · rfl

theorem signatures_flatMap_fluentSetters (ps : List Parameter) (site : Site) :
    (signatures key (ps.flatMap fun p => fluentSetters s p site)).Perm
      (ps.flatMap (settings key)) := by
  rw [signatures, List.filterMap_flatMap]
  exact List.Perm.flatMap_left ps fun p _ => signatures_fluentSetters key

def outerParams (b : Builder) : List Parameter :=
  match b.shape with
  | .flat => b.params
  | .factory => []
  | .staged => b.mandatory.take 1

theorem signatures_outer (hshape : b.shape ≠ .factory) :
    (signatures key (b.unit s).methods).Perm
      (outerSignatures key b ++ b.outerParams.flatMap (settings key)) := by
  have harrange {setters : List Method} (isPublic : Bool)
      (hsetters : (signatures key setters).Perm (b.outerParams.flatMap (settings key))) :
      (signatures key (b.hiddenConstructor :: b.creators ++ setters ++ [b.buildMethod s isPublic] ++
        if b.emitsCopy then [b.copyMethod s] else [])).Perm
        (outerSignatures key b ++ b.outerParams.flatMap (settings key)) := by
    -- the class builds after it sets and before it copies, but only what is in it counts
    have hbuild : signatures key [b.buildMethod s isPublic] = [("build", [])] := rfl
    rw [signatures_append, signatures_append, signatures_append, signatures_creators, hbuild,
      signatures_copyMethod, outerSignatures, List.append_assoc, List.append_assoc,
      List.append_assoc, List.singleton_append]
    exact (List.perm_append_comm.trans (hsetters.append_left _)).append_left _
  cases h : b.shape with
  | flat =>
    rw [methods_flat h, flatMethods]
    apply harrange
    rw [outerParams, h]
    exact signatures_flatMap_fluentSetters key _ _
  | factory => exact absurd h hshape
  | staged =>
    obtain ⟨first, rest, hmandatory, -⟩ := mandatory_of_staged h
    have hfirst : first.isMandatory = true := by
      have hmem : first ∈ b.mandatory := hmandatory ▸ List.mem_cons_self
      exact List.of_mem_filter hmem
    rw [methods_staged h, stagedMethods]
    apply harrange
    rw [outerParams, h, hmandatory, List.head?_cons, Option.map_some, Option.getD_some,
      signatures_mandatorySetters key hfirst]
    simp

theorem signatures_copyClass :
    (signatures key (b.copyClass s).methods).Perm
      ([("build", [])] ++ b.params.flatMap (settings key)) := by
  have hsplit : signatures key (b.copyClass s).methods =
      signatures key (b.params.flatMap fun p => fluentSetters s p (fluentSite .this copyName)) ++
        [("build", [])] := by
    rw [copyClass]
    exact signatures_append key (b.copyConstructor :: _) [b.buildMethod s true]
  rw [hsplit]
  exact List.perm_append_comm.trans ((signatures_flatMap_fluentSetters key _ _).append_left _)

theorem nodup_map_name {ps : List Parameter} (hb : b.WellNamed) (hps : ps.Sublist b.params) :
    (ps.map (·.name)).Nodup := hb.distinct.sublist (hps.map _)

theorem outerParams_sublist : b.outerParams.Sublist b.params := by
  unfold outerParams
  split
  · exact List.Sublist.refl _
  · exact List.nil_sublist _
  · exact (List.take_sublist _ _).trans List.filter_sublist

theorem nodup_outer_iff (hb : b.WellNamed) :
    (signatures key (b.unit s).methods).Nodup ↔
      ∀ p ∈ b.outerParams, SetApart key (outerSignatures key b) p := by
  by_cases hshape : b.shape = .factory
  · obtain ⟨p, hparams⟩ := params_of_factory hshape
    have hof : signatures key (b.hiddenConstructor :: [b.factoryMethod s p]) =
        [("of", [key p.typeRef.erased])] := rfl
    have houterParams : b.outerParams = [] := by rw [outerParams, hshape]
    rw [methods_factory hshape, hparams, List.map_singleton, signatures_append, hof,
      signatures_copyMethod, houterParams]
    refine iff_of_true ?_ (List.forall_mem_nil _)
    split_ifs <;> simp
  · exact nodup_class_iff key (signatures_outer key hshape) (nodup_outerSignatures key)
      (nodup_map_name hb outerParams_sublist)

theorem nodup_copyClass_iff (hb : b.WellNamed) :
    (signatures key (b.copyClass s).methods).Nodup ↔
      ∀ p ∈ b.params, SetApart key [("build", [])] p :=
  nodup_class_iff key (signatures_copyClass key) (List.nodup_singleton _)
    (nodup_map_name hb (List.Sublist.refl _))

theorem nodup_optional_iff (hb : b.WellNamed) (last : Parameter) :
    (signatures key (b.stage last (optionalMethods s b last)).methods).Nodup ↔
      ∀ p ∈ b.optional, SetApart key [("build", [])] p := by
  refine nodup_class_iff key ?_ (List.nodup_singleton _) (nodup_map_name hb List.filter_sublist)
  have hsplit : signatures key (b.stage last (optionalMethods s b last)).methods =
      signatures key (b.optional.flatMap fun p =>
        fluentSetters s p (fluentSite (.name root) (stageName last.name))) ++ [("build", [])] :=
    signatures_append key (b.stageConstructor last :: _) [b.delegatedBuild]
  rw [hsplit]
  exact List.perm_append_comm.trans ((signatures_flatMap_fluentSetters key _ _).append_left _)

theorem nodup_waiting_iff {current next : Parameter} {isLast : Bool}
    (hnext : next.isMandatory = true) :
    (signatures key (b.stage current (waitingMethods s b current next isLast)).methods).Nodup ↔
      (isLast = true → b.optional = [] → b.alwaysBuild = true →
        SetApart key [("build", [])] next) := by
  have hsingle {fixed found : List (String × List α)} (hfixed : fixed.Nodup)
      (hperm : found.Perm (fixed ++ settings key next)) :
      found.Nodup ↔ SetApart key fixed next := by
    have hperm' : found.Perm (fixed ++ [next].flatMap (settings key)) := by simpa using hperm
    simpa using nodup_class_iff key hperm' hfixed (List.nodup_singleton _)
  have hsetters (site : Site) : (signatures key (mandatorySetters s next site)).Nodup := by
    rw [signatures_mandatorySetters key hnext, nodup_settings_iff]
    exact argumentsApart_of_mandatory key hnext
  change (signatures key (waitingMethods s b current next isLast)).Nodup ↔ _
  unfold waitingMethods
  split_ifs with hlast halways
  · have hbuild : signatures key [b.delegatedBuild] = [("build", [])] := rfl
    rw [Bool.and_eq_true, List.isEmpty_iff] at hlast
    rw [signatures_append, signatures_mandatorySetters key hnext, hbuild,
      hsingle (List.nodup_singleton _) List.perm_append_comm]
    exact ⟨fun h _ _ _ => h, fun h => h hlast.1 hlast.2 halways⟩
  · exact iff_of_true (hsetters _) fun _ _ h => absurd h halways
  · refine iff_of_true (hsetters _) fun hl ho _ => absurd ?_ hlast
    rw [hl, ho]
    rfl

theorem nodup_stagesFrom_iff (hb : b.WellNamed) {ps : List Parameter}
    (hps : ∀ p ∈ ps, p.isMandatory = true) :
    (∀ c ∈ b.stagesFrom s ps, (signatures key c.methods).Nodup) ↔
      (ps ≠ [] → ∀ p ∈ b.optional, SetApart key [("build", [])] p) ∧
      (b.optional = [] → b.alwaysBuild = true →
        ∀ p ∈ ps.tail.getLast?, SetApart key [("build", [])] p) := by
  fun_induction stagesFrom s b ps with
  | case1 => simp
  | case2 last ho =>
    rw [List.isEmpty_iff] at ho
    simp [ho]
  | case3 last ho =>
    rw [List.isEmpty_iff] at ho
    rw [List.forall_mem_singleton, nodup_optional_iff key hb]
    simp [ho]
  | case4 current next rest ih =>
    rw [List.forall_mem_cons] at hps
    have hnext : next.isMandatory = true := (List.forall_mem_cons.1 hps.2).1
    rw [List.forall_mem_cons, nodup_waiting_iff key hnext, ih hps.2]
    -- `next` is the last of the tail exactly if no other parameter follows
    cases rest with
    | nil =>
      simp
      tauto
    | cons other rest => simp

def besideBuild (b : Builder) : List Parameter :=
  b.outerParams ++ (if b.emitsCopy then b.params else []) ++
    (if b.shape = .staged then b.optional else []) ++
    if b.shape = .staged ∧ b.optional = [] ∧ b.alwaysBuild = true then b.mandatory.getLast?.toList
    else []

theorem forall_besideBuild_iff {P : Parameter → Prop} :
    (∀ p ∈ b.besideBuild, P p) ↔
      (∀ p ∈ b.outerParams, P p) ∧
      (b.shape = .staged → (∀ p ∈ b.optional, P p) ∧
        (b.optional = [] → b.alwaysBuild = true → ∀ p ∈ b.mandatory.getLast?, P p)) ∧
      (b.emitsCopy = true → ∀ p ∈ b.params, P p) := by
  simp only [besideBuild, List.forall_mem_append, List.mem_ite_nil_right, and_imp,
    Option.mem_toList]
  constructor
  · rintro ⟨⟨⟨houterParams, hcopies⟩, hoptional⟩, hbuilt⟩
    exact ⟨houterParams, fun hshape => ⟨fun p => hoptional p hshape,
      fun ho halways p => hbuilt p hshape ho halways⟩, fun hemits p => hcopies p hemits⟩
  · rintro ⟨houterParams, hstages, hcopies⟩
    exact ⟨⟨⟨houterParams, fun p hemits => hcopies hemits p⟩, fun p hshape => (hstages hshape).1 p⟩,
      fun p hshape ho halways => (hstages hshape).2 ho halways p⟩

theorem mem_params_of_besideBuild {p : Parameter} (hp : p ∈ b.besideBuild) : p ∈ b.params := by
  have hall : ∀ p ∈ b.besideBuild, p ∈ b.params := by
    refine forall_besideBuild_iff.2 ⟨fun p hp => outerParams_sublist.mem hp, fun _ => ⟨?_, ?_⟩, ?_⟩
    · exact fun p hp => mem_params_of_optional hp
    · exact fun _ _ p hp => mem_params_of_mandatory (List.mem_of_mem_getLast? hp)
    · exact fun _ p hp => hp
  exact hall p hp

theorem mem_besideBuild_of_optional {p : Parameter} (hp : p ∈ b.optional) :
    p ∈ b.besideBuild := by
  cases hshape : b.shape with
  | flat =>
    have houterParams : p ∈ b.outerParams := by
      rw [outerParams, hshape]
      exact mem_params_of_optional hp
    exact List.mem_append_left _ (List.mem_append_left _ (List.mem_append_left _ houterParams))
  | factory =>
    rw [optional_of_factory hshape] at hp
    cases hp
  | staged =>
    refine List.mem_append_left _ (List.mem_append_right _ ?_)
    rwa [if_pos hshape]

theorem argumentsApart_iff :
    (∀ p ∈ b.besideBuild, ArgumentsApart key p) ↔ ∀ p ∈ b.params, ArgumentsApart key p := by
  constructor
  · intro h p hp
    by_cases hmandatory : p.isMandatory = true
    · exact argumentsApart_of_mandatory key hmandatory
    · exact h p (mem_besideBuild_of_optional (List.mem_filter.2 ⟨hp, by simpa using hmandatory⟩))
  · exact fun h p hp => h p (mem_params_of_besideBuild hp)

/-- No class of the builder has two methods of the same name and the same erased arguments. -/
structure SignaturesApart (b : Builder) : Prop where
  arguments : ∀ p ∈ b.params, ArgumentsApart key p
  building : ∀ p ∈ b.besideBuild, p.type.collection?.isSome = true → p.name ≠ "build"
  creating : ∀ p ∈ b.outerParams, p.type.collection?.isSome = true →
    p.name ∉ b.creators.map (·.name)
  copying : b.emitsCopy = true → ∀ p ∈ b.outerParams, p.name = "copy" →
    ∀ t ∈ argumentTypes p, key t.erased ≠ key (.reference b.target)

theorem setApart_build_iff {p : Parameter} :
    SetApart key [("build", [])] p ↔
      ArgumentsApart key p ∧ (p.type.collection?.isSome = true → p.name ≠ "build") := by
  rw [SetApart, List.forall_mem_singleton, nullary_mem_settings_iff, not_and]

theorem setApart_outer_iff {p : Parameter} :
    SetApart key (outerSignatures key b) p ↔
      SetApart key [("build", [])] p ∧
      (p.type.collection?.isSome = true → p.name ∉ b.creators.map (·.name)) ∧
      (b.emitsCopy = true → p.name = "copy" →
        ∀ t ∈ argumentTypes p, key t.erased ≠ key (.reference b.target)) := by
  have hcreators : (∀ m ∈ b.creators, (m.name, []) ∉ settings key p) ↔
      (p.type.collection?.isSome = true → p.name ∉ b.creators.map (·.name)) := by
    simp only [nullary_mem_settings_iff, List.mem_map, not_and, not_exists]
    exact ⟨fun h hc m hm heq => h m hm hc heq.symm, fun h m hm hc heq => h hc m hm heq.symm⟩
  have hcopy : (∀ x ∈ if b.emitsCopy then [("copy", [key (.reference b.target)])] else [],
      x ∉ settings key p) ↔ (b.emitsCopy = true → p.name = "copy" →
        ∀ t ∈ argumentTypes p, key t.erased ≠ key (.reference b.target)) := by
    split_ifs with hemits
    · rw [List.forall_mem_singleton, unary_mem_settings_iff]
      simp [hemits]
    · simp [hemits]
  rw [setApart_build_iff, SetApart, outerSignatures, List.forall_mem_append, List.forall_mem_map,
    hcreators, List.forall_mem_cons, hcopy, nullary_mem_settings_iff, not_and]
  tauto

theorem nodup_classes_iff (hb : b.WellNamed) :
    (∀ c ∈ (b.unit s).outer :: (b.unit s).nestedClasses, (signatures key c.methods).Nodup) ↔
      (∀ p ∈ b.outerParams, SetApart key (outerSignatures key b) p) ∧
      (b.shape = .staged → (∀ p ∈ b.optional, SetApart key [("build", [])] p) ∧
        (b.optional = [] → b.alwaysBuild = true →
          ∀ p ∈ b.mandatory.getLast?, SetApart key [("build", [])] p)) ∧
      (b.emitsCopy = true → ∀ p ∈ b.params, SetApart key [("build", [])] p) := by
  have hmandatory : ∀ p ∈ b.mandatory, p.isMandatory = true := fun p hp => List.of_mem_filter hp
  have hcopy : (∀ c ∈ if b.emitsCopy then [b.copyClass s] else [],
      (signatures key c.methods).Nodup) ↔
        (b.emitsCopy = true → ∀ p ∈ b.params, SetApart key [("build", [])] p) := by
    split_ifs with hemits
    · rw [List.forall_mem_singleton, nodup_copyClass_iff key hb]
      simp [hemits]
    · simp [hemits]
  have hstages : (∀ c ∈ b.stagesFrom s b.mandatory, (signatures key c.methods).Nodup) ↔
      (b.shape = .staged → (∀ p ∈ b.optional, SetApart key [("build", [])] p) ∧
        (b.optional = [] → b.alwaysBuild = true →
          ∀ p ∈ b.mandatory.getLast?, SetApart key [("build", [])] p)) := by
    by_cases hshape : b.shape = .staged
    · obtain ⟨first, rest, heq, hmore⟩ := mandatory_of_staged hshape
      have hlast : b.optional = [] → rest.getLast? = (first :: rest).getLast? := by
        intro ho
        obtain ⟨next, later, rfl⟩ :=
          List.exists_cons_of_ne_nil (hmore.resolve_right (not_not.2 ho))
        rw [List.getLast?_cons_cons]
      rw [nodup_stagesFrom_iff key hb hmandatory, heq, List.tail_cons]
      constructor
      · rintro ⟨hoptional, hbuilt⟩ -
        exact ⟨hoptional (List.cons_ne_nil _ _), fun ho halways => hlast ho ▸ hbuilt ho halways⟩
      · intro h
        obtain ⟨hoptional, hbuilt⟩ := h hshape
        exact ⟨fun _ => hoptional, fun ho halways => (hlast ho).symm ▸ hbuilt ho halways⟩
    · rw [stagesFrom_of_not_staged hshape]
      exact iff_of_true (List.forall_mem_nil _) fun h => absurd h hshape
  rw [List.forall_mem_cons, nestedClasses_unit, List.forall_mem_append, hstages, hcopy]
  exact and_congr_left fun _ => nodup_outer_iff key hb

theorem nodup_classes_iff_apart (hb : b.WellNamed) :
    (∀ c ∈ (b.unit s).outer :: (b.unit s).nestedClasses, (signatures key c.methods).Nodup) ↔
      SignaturesApart key b := by
  have hbuilds : (∀ p ∈ b.besideBuild, SetApart key [("build", [])] p) ↔
      (∀ p ∈ b.params, ArgumentsApart key p) ∧
        ∀ p ∈ b.besideBuild, p.type.collection?.isSome = true → p.name ≠ "build" := by
    simp only [setApart_build_iff, forall₂_and, argumentsApart_iff]
  simp only [nodup_classes_iff key hb, setApart_outer_iff]
  constructor
  · rintro ⟨houter, hstages, hcopies⟩
    have hbuild := hbuilds.1 (forall_besideBuild_iff.2
      ⟨fun p hp => (houter p hp).1, hstages, hcopies⟩)
    exact ⟨hbuild.1, hbuild.2, fun p hp => (houter p hp).2.1,
      fun hemits p hp => (houter p hp).2.2 hemits⟩
  · intro h
    obtain ⟨houterParams, hstages, hcopies⟩ :=
      forall_besideBuild_iff.1 (hbuilds.2 ⟨h.arguments, h.building⟩)
    exact ⟨fun p hp => ⟨houterParams p hp, h.creating p hp, fun hemits => h.copying hemits p hp⟩,
      hstages, hcopies⟩

/--
In a file that is generated no class has two methods with the same name and the same erased types of
arguments exactly under these conditions: a wrapped parameter and the value in it have different
erased types; no collection that is set beside a method that builds is called `build`; none that is
set in the outer class is called like a method that enters it; and where there are copies, nothing
called `copy` is set in the outer class by a value of the erased type of the target. So it is for
all parameters with other names whose values do not have the erased type of their wrapper.
-/
theorem methods_apart_iff {text : String} (h : b.source s = .ok text) :
    text = (b.unit s).text b.ownNames ∧
    ((∀ c ∈ (b.unit s).outer :: (b.unit s).nestedClasses, (signatures key c.methods).Nodup) ↔
      SignaturesApart key b) ∧
    ((∀ p ∈ b.params, p.name ∉ ["build", "builder", "create", "copy"]) →
      (∀ p ∈ b.params, ∀ inner, p.wrapped? = some inner →
        key (unboxed inner).1.erased ≠ key p.typeRef.erased) →
      ∀ c ∈ (b.unit s).outer :: (b.unit s).nestedClasses, (signatures key c.methods).Nodup) := by
  have hapart : (∀ c ∈ (b.unit s).outer :: (b.unit s).nestedClasses,
      (signatures key c.methods).Nodup) ↔ SignaturesApart key b :=
    nodup_classes_iff_apart key (wellNamed_of_source h)
  refine ⟨(of_source_eq_ok h).2, hapart, fun hnames hwrapped => hapart.2 ⟨?_, ?_, ?_, ?_⟩⟩
  · intro p hp
    rw [ArgumentsApart, argumentTypes]
    cases hw : p.wrapped? with
    | none => exact List.nodup_singleton _
    | some inner => simpa using hwrapped p hp inner hw
  · rintro p hp - hname
    exact hnames p (mem_params_of_besideBuild hp) (by simp [hname])
  · rintro p hp - hname
    obtain ⟨m, hm, hname⟩ := List.mem_map.1 hname
    have hcreator := name_of_mem_creators hm
    rw [hname] at hcreator
    refine hnames p (outerParams_sublist.mem hp) ?_
    rcases hcreator with hbuilder | hcreate
    · simp [hbuilder]
    · simp [hcreate]
  · intro _ p hp hname
    exact absurd (by simp [hname]) (hnames p (outerParams_sublist.mem hp))

end Classes

def edition : Builder where
  target := "me.Edition"
  name := "me.builder.EditionBuilder"
  params := [
    { name := "copy", type := .parsed (.leaf "int") },
    { name := "builder", type := .parsed (.leaf "String") },
    { name := "create", type := .parsed (.node "java.util.List" [.leaf "String"]) },
    { name := "build", type := .parsed (.node optionalClass [.leaf "Integer"]) }]
  construction := .direct

theorem edition_methods_apart :
    edition.source {} = .ok ((edition.unit {}).text edition.ownNames) ∧
      ∀ c ∈ (edition.unit {}).outer :: (edition.unit {}).nestedClasses,
        (signatures id c.methods).Nodup := by
  have hsource : edition.source {} = .ok ((edition.unit {}).text edition.ownNames) := rfl
  obtain ⟨-, hapart, -⟩ := methods_apart_iff id hsource
  refine ⟨hsource, hapart.2 ⟨?_, ?_, ?_, ?_⟩⟩
  · unfold ArgumentsApart
    decide +kernel
  · decide +kernel
  · decide +kernel
  · decide +kernel

def plan : Builder where
  target := "me.Plan"
  name := "me.builder.PlanBuilder"
  params := [
    { name := "build", type := .parsed (.node "java.util.List" [.leaf "String"]),
      acceptsNull := true },
    { name := "layer",
      type := .parsed (.node optionalClass [.node optionalClass [.leaf "String"]]) },
    { name := "copy", type := .parsed (.leaf "me.Plan"), acceptsNull := true }]
  construction := .direct

theorem plan_methods_not_apart :
    (¬ ∀ (s : SupportClasses) (b : Builder) (text : String),
      (∀ p ∈ b.params, isIdentifier p.name = true) → b.source s = .ok text →
        ∀ c ∈ (b.unit s).outer :: (b.unit s).nestedClasses, (signatures id c.methods).Nodup) ∧
    plan.source {} = .ok ((plan.unit {}).text plan.ownNames) ∧
    (signatures id (plan.unit {}).methods).count ("build", []) = 2 ∧
    (signatures id (plan.unit {}).methods).count ("layer", [.reference optionalClass]) = 2 ∧
    (signatures id (plan.unit {}).methods).count ("copy", [.reference "me.Plan"]) = 2 := by
  have hbuild : (signatures id (plan.unit {}).methods).count ("build", []) = 2 := by
    decide +kernel
  refine ⟨?_, rfl, hbuild, by decide +kernel, by decide +kernel⟩
  intro h
  have hapart := h {} plan _ (by decide +kernel) rfl _ List.mem_cons_self
  have hone := List.nodup_iff_count_le_one.1 hapart ("build", [])
  change (signatures id (plan.unit {}).methods).count ("build", []) ≤ 1 at hone
  omega

end Builder

end StagedBuilder
