import StagedBuilder.Proofs.CallLaws
import StagedBuilder.Proofs.OwnNames

namespace StagedBuilder

open Java

namespace Java

def Step.checked : Step → List String
  | .nullChecks _ names => names
  | _ => []

def Stmt.checked : Stmt → List String
  | .step t => t.checked
  | .when _ body => body.flatMap (·.checked)
  | .reflective _ _ _ => []

def SourceUnit.publicMethods (u : SourceUnit) : List Method :=
  (u.methods ++ u.nestedClasses.flatMap (·.methods)).filter (·.isPublic)

end Java

inductive NullPolicy
  | primitive
  | nullable
  | refused
  deriving DecidableEq

namespace NullPolicy

def marker (s : SupportClasses) : NullPolicy → Option String
  | .primitive => none
  | .nullable => some s.nullable
  | .refused => some s.nonnull

def checks (s : SupportClasses) (name : String) : NullPolicy → List Stmt
  | .primitive => []
  | .nullable => []
  | .refused => [.step (.nullChecks s.preconditions [name])]

def ofParameter (p : Parameter) : NullPolicy :=
  if p.isPrimitive then .primitive else if p.isNullable then .nullable else .refused

def ofInner (inner : TypeExpr) : NullPolicy :=
  if inner.isLeaf = true ∧ (isPrimitive inner.base = true ∨ isPrimitive (unbox inner.base) = true)
  then .primitive else .refused

section Parameters

variable (s : SupportClasses) (p : Parameter)

theorem nullMarker_eq : p.nullMarker s = (ofParameter p).marker s := by
  unfold Parameter.nullMarker ofParameter
  split_ifs <;> rfl

theorem needsNullCheck_eq : p.needsNullCheck = decide (ofParameter p = .refused) := by
  unfold Parameter.needsNullCheck ofParameter
  cases p.isPrimitive <;> cases p.isNullable <;> rfl

theorem nullCheck_eq : p.nullCheck s = (ofParameter p).checks s p.name := by
  unfold Parameter.nullCheck Parameter.needsNullCheck ofParameter
  cases p.isPrimitive <;> cases p.isNullable <;> rfl

end Parameters

theorem unbox_of_isPrimitive {name : String} (h : isPrimitive name = true) : unbox name = name := by
  have hboxes : ∀ box ∈ boxes ++ boxes.map fun box => ("java.lang." ++ box.1, box.2),
      isPrimitive box.1 = false := by decide +kernel
  unfold unbox
  rw [List.lookup_eq_none_iff.2, Option.getD_none]
  intro box hbox
  rw [bne_iff_ne]
  rintro rfl
  rw [hboxes box hbox] at h
  exact Bool.false_ne_true h

theorem ofInner_eq (inner : TypeExpr) :
    ofInner inner = if (Builder.unboxed inner).2 then .primitive else .refused := by
  have hprimitive : isPrimitive inner.base = true ∨ isPrimitive (unbox inner.base) = true ↔
      isPrimitive (unbox inner.base) = true :=
    or_iff_right_of_imp fun h => (unbox_of_isPrimitive h).symm ▸ h
  unfold ofInner Builder.unboxed
  by_cases h : inner.isLeaf = true ∧ isPrimitive (unbox inner.base) = true
  · rw [if_pos (h.imp_right .inr), if_pos (Bool.and_eq_true_iff.2 h)]
    rfl
  · rw [if_neg (mt (And.imp_right hprimitive.1) h), if_neg (mt Bool.and_eq_true_iff.1 h)]
    rfl

end NullPolicy

/-- The method takes one argument, and all it says and checks about null is by the policy. -/
structure Java.Method.Takes (s : SupportClasses) (m : Method) (name : String) (type : TypeRef)
    (policy : NullPolicy) : Prop where
  formals : m.formals = [⟨policy.marker s, type, name⟩]
  body : ∃ rest, m.body = policy.checks s name ++ rest ∧ ∀ t ∈ rest, t.checked = []

namespace Java.Method.Takes

variable {s : SupportClasses} {m : Method} {name name' : String} {type type' : TypeRef}
  {policy policy' : NullPolicy}

theorem checked (h : m.Takes s name type policy) :
    m.body.flatMap (·.checked) = if policy = .refused then [name] else [] := by
  obtain ⟨rest, hbody, hrest⟩ := h.body
  rw [hbody, List.flatMap_append, List.flatMap_eq_nil_iff.2 hrest, List.append_nil]
  cases policy <;> rfl

theorem unique (h : m.Takes s name type policy) (h' : m.Takes s name' type' policy') :
    policy = policy' := by
  have hmarker : policy.marker s = policy'.marker s := by
    have hformals := h.formals.symm.trans h'.formals
    exact (Formal.mk.inj (List.singleton_inj.1 hformals)).1
  have hchecked := h.checked.symm.trans h'.checked
  cases policy <;> cases policy' <;> first | rfl | cases hmarker | simp at hchecked

theorem marks (h : m.Takes s name type .refused) (names : Names) :
    ∃ rest, m.body.flatMap (·.marks names) = .line (names s.preconditions ++
      ".checkNotNull(" ++ name ++ ", \"" ++ name ++ "\");") :: rest := by
  obtain ⟨rest, hbody, -⟩ := h.body
  exact ⟨rest.flatMap (·.marks names), hbody ▸ rfl⟩

theorem refused (h : m.Takes s name type .refused) (types : Types) (invoke : Invoke)
    (self : Option Nat) (heap : Heap) :
    runBody types invoke (m.frame self [.null]) m.body heap = .refused heap := by
  obtain ⟨rest, hbody, -⟩ := h.body
  have hvariable : (m.frame self [.null]).variable name heap = .ok .null heap := by
    apply Frame.variable_local
    rw [Method.frame, h.formals]
    exact List.lookup_cons_self
  rw [hbody]
  exact runBody_nullCheck_refused hvariable rfl

end Java.Method.Takes

namespace Builder

variable {s : SupportClasses} {b : Builder} {owner : Expr} {m : Method} {p : Parameter}

/-- What the public methods of a builder take: the name of the method, that of the argument, its
type and what is done about null. -/
inductive Argument (b : Builder) : String → String → TypeRef → NullPolicy → Prop
  | value {p : Parameter} (known : p ∈ b.params) :
      Argument b p.name p.name p.typeRef (.ofParameter p)
  | inside {p : Parameter} {inner : TypeExpr} (known : p ∈ b.params)
      (wraps : p.wrapped? = some inner) :
      Argument b p.name p.name (unboxed inner).1 (.ofInner inner)
  | only {p : Parameter} (known : p ∈ b.params) (shape : b.shape = .factory) :
      Argument b "of" p.name p.typeRef (.ofParameter p)
  | instance (emits : b.emitsCopy = true) :
      Argument b "copy" copied (.reference b.target) .refused

def Tells (s : SupportClasses) (b : Builder) (m : Method) : Prop :=
  m.formals = [] ∨
    ∃ name type policy, b.Argument m.name name type policy ∧ m.Takes s name type policy

theorem checked_construct : (b.construct s).checked = [] := by
  unfold construct
  split <;> rfl

theorem takes_setter (notice : Notice) (site : Site) :
    (setter s p notice site).Takes s p.name p.typeRef (.ofParameter p) := by
  refine ⟨?_, _, congrArg (· ++ _) (NullPolicy.nullCheck_eq s p), ?_⟩
  · rw [← NullPolicy.nullMarker_eq]
    rfl
  · rw [List.forall_mem_cons, List.forall_mem_singleton]
    exact ⟨rfl, rfl⟩

theorem takes_innerSetter (inner : TypeExpr) (wrapper : String) (site : Site) :
    (innerSetter s p wrapper inner site).Takes s p.name (unboxed inner).1 (.ofInner inner) := by
  rw [NullPolicy.ofInner_eq]
  unfold innerSetter
  refine ⟨?_, [.step (.assign site.owner p.name
    (.call (.method (.static wrapper) "of") [.name p.name])), .step (.ret site.next.value)], ?_, ?_⟩
  · dsimp only
    split_ifs <;> rfl
  · dsimp only
    split_ifs <;> rfl
  · rw [List.forall_mem_cons, List.forall_mem_singleton]
    exact ⟨rfl, rfl⟩

theorem takes_factoryMethod :
    (b.factoryMethod s p).Takes s p.name p.typeRef (.ofParameter p) := by
  refine ⟨?_, _, congrArg (· ++ _) (NullPolicy.nullCheck_eq s p), ?_⟩
  · rw [← NullPolicy.nullMarker_eq]
    rfl
  · rw [List.forall_mem_singleton]
    exact checked_construct

theorem takes_copyMethod :
    (b.copyMethod s).Takes s copied (.reference b.target) .refused where
  formals := rfl
  body := ⟨_, rfl, List.forall_mem_singleton.2 rfl⟩

theorem tells_of_offered (h : Offered s b owner m) : Tells s b m := by
  cases h with
  | setter notice known goes => exact .inr ⟨_, _, _, .value known, takes_setter _ _⟩
  | innerSetter known goes wraps =>
    exact .inr ⟨_, _, _, .inside known wraps, takes_innerSetter _ _ _⟩
  | accessor => exact .inl rfl
  | build => exact .inl rfl
  | delegatedBuild => exact .inl rfl

theorem tells_of_outer (h : Outer s b m) (hpublic : m.isPublic = true) : Tells s b m := by
  cases h with
  | hidden => cases hpublic
  | creator shape mem =>
    left
    rcases eq_of_mem_creators mem with rfl | rfl <;> rfl
  | offered shape offered => exact tells_of_offered offered
  | factory shape known => exact .inr ⟨_, _, _, .only known shape, takes_factoryMethod⟩
  | copy emits => exact .inr ⟨_, _, _, .instance emits, takes_copyMethod⟩

theorem tells_of_nested {c : NestedClass} (hc : c ∈ (b.unit s).nestedClasses) (hm : m ∈ c.methods)
    (hpublic : m.isPublic = true) : Tells s b m := by
  rw [nestedClasses_unit, List.mem_append] at hc
  cases hc with
  | inl hc => exact tells_of_offered (offered_of_stage hc hm hpublic)
  | inr hc =>
    split_ifs at hc with hcopy
    · obtain rfl := List.mem_singleton.1 hc
      exact tells_of_offered (offered_of_copy hcopy hm hpublic)
    · cases hc

theorem tells_of_mem (hm : m ∈ (b.unit s).publicMethods) : Tells s b m := by
  obtain ⟨hm, hpublic⟩ := List.mem_filter.1 hm
  rw [List.mem_append, List.mem_flatMap] at hm
  rcases hm with hm | ⟨c, hc, hm⟩
  · exact tells_of_outer (outer_of_mem hm) hpublic
  · exact tells_of_nested hc hm hpublic

end Builder

theorem Java.Frame.checkNotNull_refused {f : Frame} {names : List String} {name : String}
    {heap : Heap} (hdefined : ∀ n ∈ names, ∃ v, f.locals.lookup n = some v) (hname : name ∈ names)
    (hnull : f.locals.lookup name = some .null) : f.checkNotNull names heap = .refused heap := by
  induction names with
  | nil => cases hname
  | cons n names ih =>
    obtain ⟨⟨v, hv⟩, hdefined⟩ := List.forall_mem_cons.1 hdefined
    rw [Frame.checkNotNull, Exec.bind_ok (Frame.variable_local hv)]
    cases hvnull : v.isNull with
    | true => rfl
    | false =>
      refine ih hdefined ((List.mem_cons.1 hname).resolve_left ?_)
      rintro rfl
      obtain rfl := Option.some.inj (hv.symm.trans hnull)
      cases hvnull

namespace Implementation

variable {s : SupportClasses} {i : Implementation} {m : Method}

def refusing (i : Implementation) : List Parameter :=
  i.params.filter fun p => NullPolicy.ofParameter p = .refused

structure IsAccessor (s : SupportClasses) (m : Method) (p : Parameter) : Prop where
  name : m.name = p.name
  formals : m.formals = []
  result : m.result = some p.typeRef
  markers : m.markers = overrideMarker :: ((NullPolicy.ofParameter p).marker s).toList
  body : m.body = [.step (.ret (.name p.name))]

/-- The method takes a value for each parameter, and first of all refuses those that are null and
must not be. -/
structure IsConstructor (s : SupportClasses) (i : Implementation) (m : Method) : Prop where
  formals : m.formals.map (·.name) = i.params.map (·.name)
  body : ∃ rest, (∀ t ∈ rest, t.checked = []) ∧
    m.body = .step (.nullChecks s.preconditions (i.refusing.map (·.name))) :: rest

theorem methods_unit : (i.unit s).methods =
    i.constructor s :: i.factory :: i.params.map (accessor s) ++
      [i.toStringMethod, i.equalsMethod, i.hashCodeMethod] := by
  rw [SourceUnit.methods, unit, List.filterMap_map]
  exact List.filterMap_some

theorem isAccessor_accessor (p : Parameter) : IsAccessor s (accessor s p) p where
  name := rfl
  formals := rfl
  result := rfl
  markers := by
    rw [← NullPolicy.nullMarker_eq]
    rfl
  body := rfl

theorem isConstructor_constructor : IsConstructor s i (i.constructor s) where
  formals := by
    rw [constructor, formals, List.map_map]
    rfl
  body := by
    refine ⟨i.params.map (fun p => .step (.assign .this p.name (.name p.name))) ++
      (i.check.map fun c => .step (.eval (.call (.method .implicit c) []))).toList, ?_, ?_⟩
    · rw [List.forall_mem_append, List.forall_mem_map]
      refine ⟨fun p hp => rfl, fun t ht => ?_⟩
      obtain ⟨c, -, rfl⟩ := Option.map_eq_some_iff.1 (Option.mem_toList.1 ht)
      rfl
    · unfold constructor refusing
      simp only [NullPolicy.needsNullCheck_eq, List.cons_append]

theorem IsConstructor.lookup (hm : IsConstructor s i m) (hdistinct : (i.params.map (·.name)).Nodup)
    (values : Parameter → Value) (self : Option Nat) {p : Parameter} (hp : p ∈ i.params) :
    (m.frame self (i.params.map values)).locals.lookup p.name = some (values p) := by
  have hlocals : (m.frame self (i.params.map values)).locals =
      i.params.map fun q => (q.name, values q) := by
    rw [Method.frame, hm.formals]
    exact List.zip_map'
  rw [hlocals]
  exact Builder.Holds.lookup_values hdistinct hp

theorem IsConstructor.refused (hm : IsConstructor s i m) (hdistinct : (i.params.map (·.name)).Nodup)
    {values : Parameter → Value} {p : Parameter} (hp : p ∈ i.refusing) (hnull : values p = .null)
    (types : Types) (invoke : Invoke) (self : Option Nat) (heap : Heap) :
    runBody types invoke (m.frame self (i.params.map values)) m.body heap = .refused heap := by
  obtain ⟨rest, -, hbody⟩ := hm.body
  rw [hbody, runBody]
  apply Exec.bind_refused
  refine Frame.checkNotNull_refused ?_ (List.mem_map_of_mem hp) ?_
  · rw [List.forall_mem_map]
    exact fun q hq =>
      ⟨values q, hm.lookup hdistinct values self (List.mem_of_mem_filter hq)⟩
  · rw [hm.lookup hdistinct values self (List.mem_of_mem_filter hp), hnull]

theorem constructor_of_mem (hm : m ∈ (i.unit s).methods) (hresult : m.result = none) :
    m = i.constructor s := by
  rw [methods_unit, List.mem_append, List.mem_cons, List.mem_cons, List.mem_map] at hm
  rcases hm with (rfl | rfl | ⟨p, -, rfl⟩) | hm
  · rfl
  · cases hresult
  · cases hresult
  · simp only [List.mem_cons, List.not_mem_nil, or_false] at hm
    rcases hm with rfl | rfl | rfl <;> cases hresult

theorem isConstructor_of_mem (hm : m ∈ (i.unit s).methods) (hresult : m.result = none) :
    IsConstructor s i m := by
  rw [constructor_of_mem hm hresult]
  exact isConstructor_constructor

theorem isAccessor_of_mem (hm : m ∈ (i.unit s).methods) (hpublic : m.isPublic = true)
    (hinstance : m.isStatic = false) :
    (∃ p ∈ i.params, IsAccessor s m p) ∨
      m.name ∈ ["toString", "equals", "hashCode"] ∧ m.markers = [overrideMarker] := by
  rw [methods_unit, List.mem_append, List.mem_cons, List.mem_cons, List.mem_map] at hm
  rcases hm with (rfl | rfl | ⟨p, hp, rfl⟩) | hm
  · cases hpublic
  · cases hinstance
  · exact .inl ⟨p, hp, isAccessor_accessor p⟩
  · right
    simp only [List.mem_cons, List.not_mem_nil, or_false] at hm
    rcases hm with rfl | rfl | rfl
    · exact ⟨.head _, rfl⟩
    · exact ⟨.tail _ (.head _), rfl⟩
    · exact ⟨.tail _ (.tail _ (.head _)), rfl⟩

end Implementation

/--
Null in all that is generated. A public method of a builder takes nothing or one argument, for which
there is exactly one policy: primitive values and the values of parameters that may be null are not
checked, and all others are refused when they are null, before anything else is done. The
constructor of an implementation refuses null for the same parameters, in their order, and an
accessor is marked by the policy of its parameter.
-/
theorem null_is_told_and_refused (s : SupportClasses) :
    (∀ (b : Builder) (text : String), b.source s = .ok text →
      text = (b.unit s).text b.ownNames ∧
      ∀ m ∈ (b.unit s).publicMethods, m.formals = [] ∨
        ∃ name type policy, b.Argument m.name name type policy ∧ m.Takes s name type policy ∧
          (∀ name' type' policy', m.Takes s name' type' policy' → policy' = policy) ∧
          (policy = .refused →
            (∀ names, ∃ rest, m.body.flatMap (·.marks names) = .line (names s.preconditions ++
              ".checkNotNull(" ++ name ++ ", \"" ++ name ++ "\");") :: rest) ∧
            ∀ types invoke self heap,
              runBody types invoke (m.frame self [.null]) m.body heap = .refused heap)) ∧
    ∀ (i : Implementation) (text : String), i.source s = .ok text →
      text = (i.unit s).text (.ofOwner i.name) ∧
      (∃ m ∈ (i.unit s).methods, m.result = none) ∧
      (∀ m ∈ (i.unit s).methods, m.result = none →
        i.IsConstructor s m ∧
          ∀ values : Parameter → Value, (∃ p ∈ i.refusing, values p = .null) →
            ∀ types invoke self heap,
              runBody types invoke (m.frame self (i.params.map values)) m.body heap =
                .refused heap) ∧
      (∀ p ∈ i.params, ∃ m ∈ (i.unit s).methods, Implementation.IsAccessor s m p) ∧
      ∀ m ∈ (i.unit s).methods, m.isPublic = true → m.isStatic = false →
        (∃ p ∈ i.params, Implementation.IsAccessor s m p) ∨
          m.name ∈ ["toString", "equals", "hashCode"] ∧
            m.markers = [Implementation.overrideMarker] := by
  constructor
  · intro b text h
    refine ⟨(Builder.of_source_eq_ok h).2, fun m hm => ?_⟩
    rcases Builder.tells_of_mem hm with hformals | ⟨name, type, policy, hargument, htakes⟩
    · exact .inl hformals
    · refine .inr ⟨name, type, policy, hargument, htakes, fun _ _ _ h' => h'.unique htakes, ?_⟩
      rintro rfl
      exact ⟨htakes.marks, htakes.refused⟩
  · intro i text h
    obtain ⟨hcheck, htext⟩ := Implementation.of_source_eq_ok h
    have hdistinct := (Builder.checkAfter_ok hcheck).1
    refine ⟨htext, ⟨i.constructor s, .head _, rfl⟩, fun m hm hresult => ?_, fun p hp => ?_,
      fun m => Implementation.isAccessor_of_mem⟩
    · have hconstructor := Implementation.isConstructor_of_mem hm hresult
      refine ⟨hconstructor, ?_⟩
      rintro values ⟨p, hp, hnull⟩
      exact hconstructor.refused hdistinct hp hnull
    · refine ⟨_, ?_, Implementation.isAccessor_accessor p⟩
      rw [Implementation.methods_unit]
      exact List.mem_append_left _ (.tail _ (.tail _ (List.mem_map_of_mem hp)))

namespace Builder

def crateOwner : Parameter := { name := "owner", type := .verbatim "Owner" }

def crate : Builder where
  target := "me.Crate"
  name := "me.builder.CrateBuilder"
  params := [
    { name := "label", type := .verbatim "String", acceptsNull := true },
    crateOwner,
    { name := "limit", type := .parsed (.node optionalClass [.leaf "Integer"]) }]
  construction := .delegate "me.builder.CrateImpl"

def crateImpl : Implementation := ⟨"me.Crate", "me.builder.CrateImpl", crate.params, none⟩

theorem crate_refuses_null :
    (∃ text, crate.source {} = .ok text) ∧ (∃ text, crateImpl.source {} = .ok text) ∧
      (∃ m ∈ (crate.unit {}).publicMethods, m.name = "owner" ∧
        ∀ types invoke self heap,
          runBody types invoke (m.frame self [.null]) m.body heap = .refused heap) ∧
      ∃ m ∈ (crateImpl.unit {}).methods, m.result = none ∧
        ∀ types invoke self heap,
          runBody types invoke (m.frame self [.given 0, .null, .given 1]) m.body heap =
            .refused heap := by
  obtain ⟨hbuilder, himplementation⟩ := null_is_told_and_refused {}
  obtain ⟨-, hmethods⟩ := hbuilder crate _ rfl
  obtain ⟨-, -, hconstructor, -⟩ := himplementation crateImpl _ rfl
  refine ⟨⟨_, rfl⟩, ⟨_, rfl⟩, ?_, ?_⟩
  · have hmem : setter {} crateOwner .mandatory (nextSite .this crateOwner) ∈
        (crate.unit {}).publicMethods :=
      List.mem_filter.2 ⟨List.mem_append_left _ (.tail _ (.tail _ (.head _))), rfl⟩
    refine ⟨_, hmem, rfl, ?_⟩
    rcases hmethods _ hmem with hformals | ⟨name, type, policy, -, htakes, -, hrefused⟩
    · cases hformals
    · have hmarker : some ({} : SupportClasses).nonnull = policy.marker {} :=
        (Formal.mk.inj (List.singleton_inj.1 htakes.formals)).1
      cases policy with
      | primitive => cases hmarker
      | nullable => exact absurd hmarker (by decide)
      | refused => exact (hrefused rfl).2
  · have hmem : crateImpl.constructor {} ∈ (crateImpl.unit {}).methods := .head _
    have hnull := (hconstructor _ hmem rfl).2
      (fun p => if p = crateOwner then .null else if p.name = "label" then .given 0 else .given 1)
    exact ⟨_, hmem, rfl, hnull ⟨crateOwner, .head _, rfl⟩⟩

end Builder

end StagedBuilder
