import Mathlib.Data.List.Nodup
import StagedBuilder.Manifest.WellFormed
import StagedBuilder.Plan.Basic
import StagedBuilder.Proofs.ObjectLaws
import StagedBuilder.Proofs.TraversalLaws

namespace StagedBuilder

namespace Parameter

theorem ofDecl_eq_error_iff {d : ParameterDecl} {e : MalformedType} :
    ofDecl d = .error e ↔ d.verbatim = false ∧ TypeExpr.parse d.type = .error e := by
  unfold ofDecl
  cases hv : d.verbatim
  · cases hp : TypeExpr.parse d.type <;>
      simp [bind, Except.bind, pure, Except.pure, Functor.map, Except.map]
  · simp [bind, Except.bind, pure, Except.pure]

theorem name_of_ofDecl {d : ParameterDecl} {p : Parameter} (h : ofDecl d = .ok p) :
    p.name = d.name := by
  unfold ofDecl at h
  cases hv : d.verbatim with
  | true =>
    rw [hv] at h
    rw [← Except.ok.inj h]
  | false =>
    rw [hv] at h
    cases hp : TypeExpr.parse d.type with
    | error e =>
      rw [hp] at h
      exact nomatch h
    | ok t =>
      rw [hp] at h
      rw [← Except.ok.inj h]

theorem checkAfter_eq_error_iff {seen : List String} {ps : List Parameter} {e : GenerationError}
    (hdistinct : (ps.map (·.name)).Nodup) (hseen : ∀ p ∈ ps, p.name ∉ seen) :
    checkAfter seen ps = .error e ↔
      ∃ before p after, ps = before ++ p :: after ∧ (∀ q ∈ before, q.name ∉ reservedNames) ∧
        p.name ∈ reservedNames ∧ e = .invalidParameter p.name .reserved := by
  induction ps generalizing seen with
  | nil => simp [checkAfter]
  | cons p ps ih =>
    rw [List.map_cons, List.nodup_cons] at hdistinct
    obtain ⟨hp, hps⟩ := List.forall_mem_cons.1 hseen
    have hlater : ∀ q ∈ ps, q.name ∉ p.name :: seen := by
      intro q hq hmem
      rcases List.mem_cons.1 hmem with heq | hmem
      · exact hdistinct.1 (heq ▸ List.mem_map_of_mem hq)
      · exact hps q hq hmem
    rw [checkAfter]
    by_cases hreserved : p.name ∈ reservedNames
    · rw [if_pos (List.contains_iff_mem.2 hreserved), Except.error.injEq]
      refine ⟨fun h => ⟨[], p, ps, rfl, by simp, hreserved, h.symm⟩, ?_⟩
      rintro ⟨before, q, after, heq, hbefore, -, rfl⟩
      cases before with
      | nil => rw [(List.cons.inj heq).1]
      | cons r before =>
        obtain ⟨rfl, -⟩ := List.cons.inj heq
        exact absurd hreserved (hbefore p List.mem_cons_self)
    · rw [if_neg (mt List.contains_iff_mem.1 hreserved), if_neg (mt List.contains_iff_mem.1 hp),
        ih hdistinct.2 hlater]
      refine ⟨?_, ?_⟩
      · rintro ⟨before, q, after, rfl, hbefore, hq⟩
        exact ⟨p :: before, q, after, rfl, List.forall_mem_cons.2 ⟨hreserved, hbefore⟩, hq⟩
      · rintro ⟨before, q, after, heq, hbefore, hq, he⟩
        cases before with
        | nil => exact absurd ((List.cons.inj heq).1 ▸ hq) hreserved
        | cons r before =>
          obtain ⟨rfl, rfl⟩ := List.cons.inj heq
          exact ⟨before, q, after, rfl, (List.forall_mem_cons.1 hbefore).2, hq, he⟩

end Parameter

theorem mem_of_selectConstructor {type : String} {cs : List ConstructorDecl} {c : ConstructorDecl}
    (h : selectConstructor type cs = .ok c) : c ∈ cs := by
  unfold selectConstructor at h
  split at h
  · rename_i heq
    obtain rfl := Except.ok.inj h
    exact List.mem_of_mem_filter (heq ▸ List.mem_singleton_self _)
  · split at h
    · cases h
    · rename_i heq
      obtain rfl := Except.ok.inj h
      exact List.mem_of_mem_filter (heq ▸ List.mem_singleton_self _)
    · cases h
  · cases h

theorem error_of_selectConstructor {type : String} {cs : List ConstructorDecl}
    {e : GenerationError} (h : selectConstructor type cs = .error e) :
    e = .missingConstructor type ∨ ∃ cause, e = .ambiguousConstructor type cause := by
  unfold selectConstructor at h
  split at h
  · cases h
  · split at h
    · exact .inl (Except.error.inj h).symm
    · cases h
    · exact .inr ⟨_, (Except.error.inj h).symm⟩
  · exact .inr ⟨_, (Except.error.inj h).symm⟩

section Faults

variable {path : List String} {type name : String}

theorem names_of_faultless {seen : List String} {ps : List ParameterDecl}
    (h : parametersFault? path type seen ps = none) :
    (ps.map (·.name)).Nodup ∧ ∀ p ∈ ps, p.name ∉ seen := by
  induction ps generalizing seen with
  | nil => simp
  | cons p ps ih =>
    rw [parametersFault?, Option.orElse_eq_or, Option.or_eq_none_iff] at h
    obtain ⟨-, h⟩ := h
    split_ifs at h with hseen
    obtain ⟨hdistinct, hlater⟩ := ih h
    rw [List.contains_iff_mem] at hseen
    refine ⟨?_, List.forall_mem_cons.2 ⟨hseen, fun q hq hmem =>
      hlater q hq (List.mem_cons_of_mem _ hmem)⟩⟩
    rw [List.map_cons, List.nodup_cons, List.mem_map]
    refine ⟨?_, hdistinct⟩
    rintro ⟨q, hq, hname⟩
    exact hlater q hq (hname ▸ List.mem_cons_self)

theorem TypeDecl.parameters_of_faultless {d : TypeDecl} (h : d.fault? path name = none) :
    parametersFault? path name [] d.params = none ∧
      ∀ c ∈ d.constructors, parametersFault? path name [] c.params = none := by
  simp only [TypeDecl.fault?, Option.orElse_eq_or, Option.or_eq_none_iff,
    List.findSome?_eq_none_iff] at h
  exact h.2.2.2.2.2

theorem Manifest.fault?_of_mem {m : Manifest} {d : TypeDecl} (hm : m.fault? = none)
    (hd : (name, d) ∈ m.types) : d.fault? [name] name = none := by
  simp only [Manifest.fault?, Option.orElse_eq_or, Option.or_eq_none_iff,
    List.findSome?_eq_none_iff] at hm
  exact (hm.2.2 (name, d) hd).2

end Faults

namespace Plan

variable {s : SupportClasses} {defaults : Defaults} {name : String} {d : TypeDecl}
  {declared : List ParameterDecl} {plan : Plan} {e : GenerationError}

/-- The parameters are those of the constructor that is picked, or else those of the type. -/
def Selects (name : String) (d : TypeDecl) (declared : List ParameterDecl) : Prop :=
  (d.kind = .plainClass ∧
      ∃ c ∈ d.constructors, selectConstructor name d.constructors = .ok c ∧ declared = c.params) ∨
    (d.kind ≠ .plainClass ∧ declared = d.params)

theorem selects_iff :
    Selects name d declared ↔ ∃ v, signature name d = .ok (v, declared) := by
  unfold signature
  refine ⟨?_, ?_⟩
  · rintro (⟨hkind, c, -, hc, rfl⟩ | ⟨hkind, rfl⟩)
    · exact ⟨c.visibility, by simp [hkind, hc, Except.map]⟩
    · refine ⟨d.visibility, ?_⟩
      split
      · contradiction
      · rfl
  · rintro ⟨v, h⟩
    split at h
    · rename_i hkind
      obtain ⟨c, hc, heq⟩ := map_eq_ok_iff.1 h
      obtain ⟨-, rfl⟩ := Prod.mk.inj heq
      exact .inl ⟨hkind, c, mem_of_selectConstructor hc, hc, rfl⟩
    · rename_i hkind
      obtain ⟨-, rfl⟩ := Prod.mk.inj (Except.ok.inj h)
      exact .inr ⟨hkind, rfl⟩

theorem signature_eq_error_iff :
    signature name d = .error e ↔
      d.kind = .plainClass ∧ selectConstructor name d.constructors = .error e := by
  unfold signature
  split
  · rename_i hkind
    rw [map_eq_error_iff, and_iff_right hkind]
  · rename_i hkind
    exact iff_of_false nofun fun h => hkind h.1

theorem ofDecl_eq (defaults : Defaults) (name : String) (d : TypeDecl) :
    ofDecl defaults name d =
      (signature name d).bind fun (visibility, declared) =>
        ((declared.mapM Parameter.ofDecl).mapError .malformedType).map fun params =>
          { kind := d.kind
            check := d.check
            builder := {
              target := name
              name := builderName defaults name d
              params := params
              construction := construction defaults name d visibility
              alwaysBuild := d.alwaysBuild.getD defaults.alwaysBuild
              copy := d.copy.getD defaults.copy } } := by
  unfold ofDecl
  rcases signature name d with e | ⟨v, declared⟩
  · rfl
  · simp only [bind, Except.bind]
    cases List.mapM Parameter.ofDecl declared <;> rfl

theorem ofDecl_eq_error_iff :
    ofDecl defaults name d = .error e ↔
      (d.kind = .plainClass ∧ selectConstructor name d.constructors = .error e) ∨
        ∃ before p after cause, Selects name d (before ++ p :: after) ∧
          (∀ q ∈ before, ∃ r, Parameter.ofDecl q = .ok r) ∧
          p.verbatim = false ∧ TypeExpr.parse p.type = .error cause ∧
          e = .malformedType cause := by
  rw [ofDecl_eq, ← signature_eq_error_iff]
  simp only [selects_iff]
  rcases signature name d with e' | ⟨v, declared⟩
  · simp [Except.bind]
  · simp only [Except.bind, map_eq_error_iff, mapError_eq_error_iff, mapM_eq_error_iff,
      Parameter.ofDecl_eq_error_iff, Except.ok.injEq, Prod.mk.injEq, reduceCtorEq, false_or]
    refine ⟨?_, ?_⟩
    · rintro ⟨cause, ⟨before, p, after, rfl, hbefore, hp, hcause⟩, rfl⟩
      exact ⟨before, p, after, cause, ⟨v, rfl, rfl⟩, hbefore, hp, hcause, rfl⟩
    · rintro ⟨before, p, after, cause, ⟨_, -, rfl⟩, hbefore, hp, hcause, rfl⟩
      exact ⟨cause, ⟨before, p, after, rfl, hbefore, hp, hcause⟩, rfl⟩

theorem params_of_ofDecl (h : ofDecl defaults name d = .ok plan) :
    ∃ declared, Selects name d declared ∧
      List.Forall₂ (fun q p => Parameter.ofDecl q = .ok p) declared plan.builder.params := by
  rw [ofDecl_eq] at h
  rcases hs : signature name d with e' | ⟨v, declared⟩
  · rw [hs] at h
    exact nomatch h
  · rw [hs] at h
    obtain ⟨params, hparams, rfl⟩ := map_eq_ok_iff.1 h
    exact ⟨declared, selects_iff.2 ⟨v, hs⟩, mapM_eq_ok_iff.1 (mapError_eq_ok_iff.1 hparams)⟩

theorem names_of_forall₂ {params : List Parameter}
    (h : List.Forall₂ (fun q p => Parameter.ofDecl q = .ok p) declared params) :
    params.map (·.name) = declared.map (·.name) := by
  induction h with
  | nil => rfl
  | cons hp _ ih => rw [List.map_cons, List.map_cons, Parameter.name_of_ofDecl hp, ih]

theorem files_eq (s : SupportClasses) (plan : Plan) :
    plan.files s = (Parameter.checkAll plan.builder.params).map fun _ =>
      ⟨plan.builder.name, (plan.builder.unit s).text plan.builder.ownNames⟩ ::
        (plan.implementation?.map fun i => ⟨i.name, (i.unit s).text (.ofOwner i.name)⟩).toList := by
  have himplementation : ∀ i, plan.implementation? = some i → i.params = plan.builder.params := by
    intro i hi
    unfold implementation? at hi
    split at hi
    · obtain rfl := Option.some.inj hi
      rfl
    · cases hi
  unfold files Builder.source
  cases hcheck : Parameter.checkAll plan.builder.params with
  | error e => rfl
  | ok =>
    cases hi : plan.implementation? with
    | none => rfl
    | some i =>
      simp only [Implementation.source, himplementation i hi, hcheck]
      rfl

theorem classNames_of_files {files : List SourceFile} (h : plan.files s = .ok files) :
    files.map (·.className) = plan.classNames := by
  rw [files_eq] at h
  obtain ⟨-, -, rfl⟩ := map_eq_ok_iff.1 h
  rw [List.map_cons, classNames]
  cases plan.implementation? <;> rfl

theorem distinct_of_faultless {path : List String} (hd : d.fault? path name = none)
    (h : ofDecl defaults name d = .ok plan) : (plan.builder.params.map (·.name)).Nodup := by
  obtain ⟨declared, hselects, hparams⟩ := params_of_ofDecl h
  obtain ⟨hown, hconstructors⟩ := TypeDecl.parameters_of_faultless hd
  rw [names_of_forall₂ hparams]
  rcases hselects with ⟨-, c, hc, -, rfl⟩ | ⟨-, rfl⟩
  · exact (names_of_faultless (hconstructors c hc)).1
  · exact (names_of_faultless hown).1

/--
What is left to fail for a type of a manifest without faults. It has no plan exactly if no
constructor of a class can be picked or a parameter of the list it is made from has a malformed
type, and for a plan no code is generated exactly if a parameter has a reserved name; the first that
does is reported, and never a parameter that is declared more than once.
-/
theorem failures_of_faultless (s : SupportClasses) {m : Manifest} {name : String} {d : TypeDecl}
    (hm : m.fault? = none) (hd : (name, d) ∈ m.types) :
    (∀ e, ofDecl m.defaults name d = .error e ↔
      (d.kind = .plainClass ∧ selectConstructor name d.constructors = .error e) ∨
        ∃ before p after cause, Selects name d (before ++ p :: after) ∧
          (∀ q ∈ before, ∃ r, Parameter.ofDecl q = .ok r) ∧
          p.verbatim = false ∧ TypeExpr.parse p.type = .error cause ∧
          e = .malformedType cause) ∧
    (∀ e, selectConstructor name d.constructors = .error e →
      e = .missingConstructor name ∨ ∃ cause, e = .ambiguousConstructor name cause) ∧
    ∀ plan, ofDecl m.defaults name d = .ok plan →
      ((∃ e, plan.files s = .error e) ↔
        ∃ p ∈ plan.builder.params, p.name = "_b" ∨ p.name = "_c" ∨ p.name = "_o") ∧
      (∀ e, plan.files s = .error e ↔
        ∃ before p after, plan.builder.params = before ++ p :: after ∧
          (∀ q ∈ before, q.name ∉ ["_b", "_c", "_o"]) ∧ p.name ∈ ["_b", "_c", "_o"] ∧
          e = .invalidParameter p.name .reserved) ∧
      ∀ n, plan.files s ≠ .error (.invalidParameter n .repeated) := by
  refine ⟨fun e => ofDecl_eq_error_iff, fun e => error_of_selectConstructor, ?_⟩
  intro plan hplan
  have hdistinct := distinct_of_faultless (Manifest.fault?_of_mem hm hd) hplan
  have hfiles : ∀ e, plan.files s = .error e ↔
      ∃ before p after, plan.builder.params = before ++ p :: after ∧
        (∀ q ∈ before, q.name ∉ ["_b", "_c", "_o"]) ∧ p.name ∈ ["_b", "_c", "_o"] ∧
        e = .invalidParameter p.name .reserved := by
    intro e
    rw [files_eq, map_eq_error_iff]
    exact Parameter.checkAfter_eq_error_iff hdistinct (by simp)
  refine ⟨⟨?_, ?_⟩, hfiles, ?_⟩
  · rintro ⟨e, he⟩
    obtain ⟨before, p, after, hparams, -, hp, -⟩ := (hfiles e).1 he
    exact ⟨p, by simp [hparams], by simpa using hp⟩
  · rintro ⟨p, hp, hreserved⟩
    have hfind : (plan.builder.params.find? fun q => q.name ∈ ["_b", "_c", "_o"]).isSome := by
      rw [List.find?_isSome]
      exact ⟨p, hp, by simpa using hreserved⟩
    obtain ⟨first, hfirst⟩ := Option.isSome_iff_exists.1 hfind
    obtain ⟨hname, before, after, hparams, hbefore⟩ := List.find?_eq_some_iff_append.1 hfirst
    exact ⟨_, (hfiles _).2 ⟨before, first, after, hparams, by simpa using hbefore,
      by simpa using hname, rfl⟩⟩
  · intro n h
    obtain ⟨before, p, after, -, -, -, he⟩ := (hfiles _).1 h
    cases he

def order : TypeDecl where
  kind := .record
  params := [{ name := "id", type := "long" }, { name := "_c", type := "List<String>" }]

def parcel : TypeDecl where
  constructors := [
    { params := [{ name := "weight", type := "int" }] },
    { params := [{ name := "label", type := "Map<" }] }]

def shop : Manifest where
  types := [("shop.Order", order), ("shop.Parcel", parcel)]

theorem shop_failures :
    shop.fault? = none ∧
      (∃ plan, ofDecl {} "shop.Order" order = .ok plan ∧
        plan.files {} = .error (.invalidParameter "_c" .reserved)) ∧
      ofDecl {} "shop.Parcel" parcel =
        .error (.ambiguousConstructor "shop.Parcel" (.sameArity 1)) := by
  have hshop : shop.fault? = none := by decide +kernel
  have horder : (ofDecl {} "shop.Order" order).map (·.builder.params) = .ok [
      { name := "id", type := .parsed (.leaf "long") },
      { name := "_c", type := .parsed (.node "java.util.List" [.leaf "String"]) }] := by
    decide +kernel
  obtain ⟨plan, hplan, hparams⟩ := map_eq_ok_iff.1 horder
  obtain ⟨-, -, hfiles⟩ := failures_of_faultless {} hshop (List.mem_cons_self : _ ∈ shop.types)
  obtain ⟨-, hfirst, -⟩ := hfiles plan hplan
  obtain ⟨hfails, -, -⟩ := failures_of_faultless {} hshop
    (List.mem_cons_of_mem _ List.mem_cons_self : _ ∈ shop.types)
  refine ⟨hshop, ⟨plan, hplan, (hfirst _).2 ?_⟩, (hfails _).2 (.inl ⟨rfl, by decide⟩)⟩
  exact ⟨[_], _, [], hparams, by decide, by decide, rfl⟩

end Plan

end StagedBuilder
