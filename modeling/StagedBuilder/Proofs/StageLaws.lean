import Mathlib.Data.List.Nodup
import StagedBuilder.Builder.Source
import StagedBuilder.Proofs.SetterLaws

namespace StagedBuilder.Builder

open Java

structure Distinct (b : Builder) : Prop where
  staged : b.shape = .staged
  stages : b.stageNames.Nodup
  outer : b.simpleName ∉ b.stageNames
  copy : copyName ∉ b.stageNames

theorem of_source_eq_ok {s : SupportClasses} {b : Builder} {text : String}
    (h : b.source s = .ok text) :
    Parameter.checkAll b.params = .ok () ∧ text = (b.unit s).text b.ownNames := by
  unfold source at h
  cases hcheck : Parameter.checkAll b.params with
  | error e =>
    rw [hcheck] at h
    exact nomatch h
  | ok =>
    rw [hcheck] at h
    exact ⟨rfl, (Except.ok.inj h).symm⟩

section Chain

variable {s : SupportClasses} {b : Builder} {before rest : List Parameter}
  {current next last : Parameter}

theorem mandatory_of_staged (h : b.shape = .staged) :
    ∃ first rest, b.mandatory = first :: rest ∧ (rest ≠ [] ∨ b.optional ≠ []) := by
  unfold shape at h
  split at h
  · cases h
  · cases h
  · rename_i hnil hone
    cases hm : b.mandatory with
    | nil => exact absurd hm hnil
    | cons first rest =>
      refine ⟨first, rest, rfl, ?_⟩
      rw [← not_and_or]
      rintro ⟨rfl, ho⟩
      exact hone first hm ho

theorem optional_of_factory (hshape : b.shape = .factory) : b.optional = [] := by
  unfold shape at hshape
  split at hshape
  · cases hshape
  · assumption
  · cases hshape

theorem params_of_factory (hshape : b.shape = .factory) : ∃ p, b.params = [p] := by
  unfold shape at hshape
  split at hshape
  · cases hshape
  · rename_i p hmandatory hoptional
    have hall : ∀ q ∈ b.params, q.isMandatory = true := by
      intro q hq
      have hnot : q ∉ b.optional := by
        rw [hoptional]
        exact List.not_mem_nil
      rw [optional, List.mem_filter, not_and, Bool.not_eq_true, Bool.not_eq_false'] at hnot
      exact hnot hq
    have hparams : b.mandatory = b.params := List.filter_eq_self.2 hall
    exact ⟨p, hparams.symm.trans hmandatory⟩
  · cases hshape

theorem stageNames_eq :
    b.stageNames =
      (if b.optional.isEmpty then b.mandatory.dropLast else b.mandatory).map fun p =>
        stageName p.name := by
  unfold stageNames shape
  cases hm : b.mandatory with
  | nil => simp
  | cons first rest =>
    cases rest with
    | nil => cases ho : b.optional <;> simp
    | cons next rest => rfl

theorem copyName_not_mem_stageNames : copyName ∉ b.stageNames := by
  rw [stageNames_eq, List.mem_map]
  intro ⟨p, _, hname⟩
  have hhead := congrArg (fun name : String => name.toList.head?) hname
  simp [stageName, copyName] at hhead

theorem stageName_mem (hmandatory : b.mandatory = before ++ current :: rest)
    (hmore : rest ≠ [] ∨ b.optional ≠ []) : stageName current.name ∈ b.stageNames := by
  rw [stageNames_eq, hmandatory]
  apply List.mem_map_of_mem
  split_ifs with ho
  · have hrest : rest ≠ [] := hmore.resolve_right (not_not.2 (List.isEmpty_iff.1 ho))
    rw [List.dropLast_append_of_ne_nil (List.cons_ne_nil _ _), List.dropLast_cons_of_ne_nil hrest]
    simp
  · simp

theorem map_name_stagesFrom (ps : List Parameter) :
    (b.stagesFrom s ps).map (·.name) =
      (if b.optional.isEmpty then ps.dropLast else ps).map fun p => stageName p.name := by
  fun_induction stagesFrom s b ps with
  | case1 => simp
  | case2 last ho => simp [ho]
  | case3 last ho => simp [ho, stage]
  | case4 current next rest ih =>
    rw [List.map_cons, ih, List.dropLast_cons_cons]
    split_ifs <;> rfl

theorem stagesFrom_append (before : List Parameter) (current : Parameter) (rest : List Parameter) :
    ∃ earlier, b.stagesFrom s (before ++ current :: rest) =
      earlier ++ b.stagesFrom s (current :: rest) := by
  induction before with
  | nil => exact ⟨[], rfl⟩
  | cons p before ih =>
    obtain ⟨earlier, h⟩ := ih
    cases hb : before ++ current :: rest with
    | nil => simp at hb
    | cons q later =>
      rw [hb] at h
      rw [List.cons_append, hb, stagesFrom, h]
      exact ⟨b.stage p (waitingMethods s b p q later.isEmpty) :: earlier, rfl⟩

theorem stagesFrom_of_not_staged (h : b.shape ≠ .staged) : b.stagesFrom s b.mandatory = [] := by
  unfold shape at h
  split at h
  · rename_i hmandatory
    rw [hmandatory, stagesFrom]
  · rename_i hmandatory ho
    rw [hmandatory, stagesFrom, ho]
    rfl
  · exact absurd rfl h

theorem unit_of_shapeMembers {ms : List Method} {cs : List NestedClass}
    (h : b.shapeMembers s = ms.map .method ++ cs.map .nested) :
    (b.unit s).methods = ms ++ (if b.emitsCopy then [b.copyMethod s] else []) ∧
      (b.unit s).nestedClasses = cs ++ if b.emitsCopy then [b.copyClass s] else [] := by
  simp only [SourceUnit.methods, SourceUnit.nestedClasses, unit, h, copyMembers,
    List.filterMap_append, List.filterMap_map]
  split_ifs <;> simp

theorem shapeMembers_flat (h : b.shape = .flat) :
    b.shapeMembers s =
      (b.flatMethods s).map .method ++ (b.stagesFrom s b.mandatory).map .nested := by
  rw [stagesFrom_of_not_staged (by rw [h]; nofun), shapeMembers, h]
  simp

theorem shapeMembers_factory (h : b.shape = .factory) :
    b.shapeMembers s = (b.hiddenConstructor :: b.params.map (b.factoryMethod s)).map .method ++
      (b.stagesFrom s b.mandatory).map .nested := by
  rw [stagesFrom_of_not_staged (by rw [h]; nofun), shapeMembers, h]
  simp

theorem shapeMembers_staged (h : b.shape = .staged) :
    b.shapeMembers s =
      (b.stagedMethods s).map .method ++ (b.stagesFrom s b.mandatory).map .nested := by
  rw [shapeMembers, h]

theorem methods_flat (h : b.shape = .flat) :
    (b.unit s).methods = b.flatMethods s ++ if b.emitsCopy then [b.copyMethod s] else [] :=
  (unit_of_shapeMembers (shapeMembers_flat h)).1

theorem methods_factory (h : b.shape = .factory) :
    (b.unit s).methods = b.hiddenConstructor :: b.params.map (b.factoryMethod s) ++
      if b.emitsCopy then [b.copyMethod s] else [] :=
  (unit_of_shapeMembers (shapeMembers_factory h)).1

theorem methods_staged (h : b.shape = .staged) :
    (b.unit s).methods = b.stagedMethods s ++ if b.emitsCopy then [b.copyMethod s] else [] :=
  (unit_of_shapeMembers (shapeMembers_staged h)).1

theorem nestedClasses_unit :
    (b.unit s).nestedClasses =
      b.stagesFrom s b.mandatory ++ if b.emitsCopy then [b.copyClass s] else [] := by
  cases hshape : b.shape with
  | flat => exact (unit_of_shapeMembers (shapeMembers_flat hshape)).2
  | factory => exact (unit_of_shapeMembers (shapeMembers_factory hshape)).2
  | staged => exact (unit_of_shapeMembers (shapeMembers_staged hshape)).2

theorem map_name_nestedClasses :
    (b.unit s).nestedClasses.map (·.name) =
      b.stageNames ++ if b.emitsCopy then [copyName] else [] := by
  rw [nestedClasses_unit, List.map_append, map_name_stagesFrom, stageNames_eq]
  split_ifs <;> rfl

end Chain

end StagedBuilder.Builder
