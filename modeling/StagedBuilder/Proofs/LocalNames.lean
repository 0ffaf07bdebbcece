import StagedBuilder.Identifier
import StagedBuilder.Proofs.ErasureLaws
import StagedBuilder.Proofs.ObjectLaws

namespace StagedBuilder

namespace Java

def Step.locals : Step → List String
  | .declare _ name _ => [name]
  | _ => []

def Stmt.locals : Stmt → List String
  | .step t => t.locals
  | .when _ body => body.flatMap (·.locals)
  | .reflective _ _ _ => [Reflection.handle, Reflection.failure]

def Method.locals (m : Method) : List String := m.body.flatMap (·.locals)

def Method.LocalsApart (m : Method) : Prop := ∀ x ∈ m.locals, x ∉ m.formals.map (·.name)

inductive DeclaresIn (x : String) : Mark → Prop
  | assigned (type value : String) : DeclaresIn x (.line (type ++ " " ++ x ++ " = " ++ value))
  | caught (type : String) : DeclaresIn x (.line (type ++ " " ++ x ++ ") \x7b"))

theorem Step.exists_declaresIn {t : Step} {x : String} (hx : x ∈ t.locals) (names : Names) :
    ∃ m ∈ t.marks names, DeclaresIn x m := by
  cases t with
  | declare type name value =>
    obtain rfl := List.mem_singleton.1 hx
    have hline : type.text names ++ " " ++ x ++ " = " ++ value.text names ++ ";" =
        type.text names ++ " " ++ x ++ " = " ++ (value.text names ++ ";") := by
      simp only [String.append_assoc]
    exact ⟨_, List.mem_singleton_self _, hline ▸ .assigned _ _⟩
  | _ => cases hx

theorem Stmt.exists_declaresIn {st : Stmt} {x : String} (hx : x ∈ st.locals) (names : Names) :
    ∃ m ∈ st.marks names, DeclaresIn x m := by
  cases st with
  | step t => exact t.exists_declaresIn hx names
  | when condition body =>
    obtain ⟨t, ht, hx⟩ := List.mem_flatMap.1 hx
    obtain ⟨m, hm, hdeclares⟩ := t.exists_declaresIn hx names
    refine ⟨m, ?_, hdeclares⟩
    simp only [Stmt.marks, List.cons_append, List.mem_cons, List.mem_append, List.mem_flatMap]
    exact .inr (.inl ⟨t, ht, hm⟩)
  | reflective target erased args =>
    rw [locals, List.mem_cons, List.mem_singleton] at hx
    rcases hx with rfl | rfl
    · have hline : names Reflection.constructor ++ "<" ++ names target ++ "> " ++
          Reflection.handle ++ " = " ++ names target ++ ".class" =
          names Reflection.constructor ++ "<" ++ names target ++ ">" ++ " " ++
            Reflection.handle ++ " = " ++ (names target ++ ".class") := by
        simp only [String.append_assoc]
        rfl
      exact ⟨_, .tail _ (.tail _ (.head _)), hline ▸ .assigned _ _⟩
    · refine ⟨.line ("| " ++ names "java.lang.IllegalAccessException" ++ " " ++
        Reflection.failure ++ ") \x7b"), ?_, .caught _⟩
      simp [Stmt.marks, Reflection.failures, failureLines]

end Java

namespace Builder

open Java

variable {s : SupportClasses} {b : Builder} {owner : Expr} {m : Method}

theorem locals_construct :
    (b.construct s).locals =
      if b.construction = .reflective then [Reflection.handle, Reflection.failure] else [] := by
  unfold construct
  cases b.construction <;> rfl

theorem locals_nullCheck (p : Parameter) : (p.nullCheck s).flatMap (·.locals) = [] := by
  unfold Parameter.nullCheck
  split_ifs <;> rfl

theorem locals_setter {p : Parameter} (notice : Notice) (site : Site) :
    (setter s p notice site).locals = [] := by
  rw [Method.locals, setter, List.flatMap_append, locals_nullCheck]
  rfl

theorem locals_innerSetter {p : Parameter} (wrapper : String) (inner : TypeExpr) (site : Site) :
    (innerSetter s p wrapper inner site).locals = [] := by
  unfold innerSetter Method.locals
  dsimp only
  split_ifs <;> rfl

theorem locals_factoryMethod (p : Parameter) :
    (b.factoryMethod s p).locals = (b.construct s).locals := by
  rw [Method.locals, factoryMethod, List.flatMap_append, locals_nullCheck, List.flatMap_singleton,
    List.nil_append]

theorem Offered.locals (h : Offered s b owner m) :
    m.locals = [] ∨ m.formals = [] ∧ m.body = [b.construct s] := by
  cases h with
  | setter notice => exact .inl (locals_setter notice _)
  | innerSetter => exact .inl (locals_innerSetter _ _ _)
  | accessor => exact .inl rfl
  | build => exact .inr ⟨rfl, rfl⟩
  | delegatedBuild => exact .inl rfl

theorem Outer.locals (h : Outer s b m) :
    m.locals = [] ∨ m.formals = [] ∧ m.body = [b.construct s] ∨
      b.shape = .factory ∧ ∃ p ∈ b.params, m = b.factoryMethod s p := by
  cases h with
  | hidden => exact .inl rfl
  | creator shape mem => rcases eq_of_mem_creators mem with rfl | rfl <;> exact .inl rfl
  | offered shape offered => exact offered.locals.imp_right .inl
  | @factory p shape known => exact .inr (.inr ⟨shape, p, known, rfl⟩)
  | copy => exact .inl rfl

theorem locals_of_mem (hm : m ∈ (b.unit s).allMethods) :
    m.locals = [] ∨ m.formals = [] ∧ m.body = [b.construct s] ∨
      b.shape = .factory ∧ ∃ p ∈ b.params, m = b.factoryMethod s p := by
  cases written_of_mem hm with
  | outer outer => exact outer.locals
  | offered offered => exact offered.locals.imp_right .inl
  | stageConstructor => exact .inl rfl
  | copyConstructor =>
    left
    rw [Method.locals, copyConstructor, List.flatMap_map, List.flatMap_eq_nil_iff]
    exact fun p _ => rfl

theorem reflective_of_locals (hm : m ∈ (b.unit s).allMethods) {x : String} (hx : x ∈ m.locals) :
    b.construction = .reflective ∧ b.construct s ∈ m.body ∧
      (x = Reflection.handle ∨ x = Reflection.failure) := by
  have hconstruct : b.construct s ∈ m.body ∧ x ∈ (b.construct s).locals := by
    rcases locals_of_mem hm with hnone | ⟨-, hbody⟩ | ⟨-, p, -, rfl⟩
    · rw [hnone] at hx
      cases hx
    · rw [Method.locals, hbody, List.flatMap_singleton] at hx
      exact ⟨hbody ▸ List.mem_singleton_self _, hx⟩
    · rw [locals_factoryMethod] at hx
      exact ⟨List.mem_append_right _ (List.mem_singleton_self _), hx⟩
  obtain ⟨hmem, hx⟩ := hconstruct
  rw [locals_construct, List.mem_ite_nil_right, List.mem_cons, List.mem_singleton] at hx
  exact ⟨hx.1, hmem, hx.2⟩

theorem localsApart_factoryMethod (hb : b.WellNamed) {p : Parameter} (hp : p ∈ b.params) :
    (b.factoryMethod s p).LocalsApart ↔
      ¬ (b.construction = .reflective ∧ p.name = Reflection.failure) := by
  have hformals : (b.factoryMethod s p).formals.map (·.name) = [p.name] := rfl
  have hhandle : p.name ≠ Reflection.handle := hb.handle p hp
  rw [Method.LocalsApart, locals_factoryMethod, locals_construct, hformals]
  split_ifs with hreflective
  · simp [hreflective, hhandle.symm, eq_comm]
  · simp [hreflective]

/-- The one parameter there is is called like the exception that is caught where it is used. -/
def CatchesParameter (b : Builder) : Prop :=
  b.construction = .reflective ∧ b.shape = .factory ∧
    b.params.map (·.name) = [Reflection.failure]

theorem localsApart_iff (hb : b.WellNamed) :
    (∀ m ∈ (b.unit s).allMethods, m.LocalsApart) ↔ ¬ b.CatchesParameter := by
  constructor
  · rintro h ⟨hreflective, hshape, hname⟩
    obtain ⟨p, hparams⟩ := params_of_factory hshape
    have hp : p ∈ b.params := hparams ▸ List.mem_singleton_self p
    rw [hparams] at hname
    exact (localsApart_factoryMethod hb hp).1 (h _ (factoryMethod_mem hshape hp))
      ⟨hreflective, List.singleton_inj.1 hname⟩
  · intro hcatches m hm
    rcases locals_of_mem hm with hnone | ⟨hformals, -⟩ | ⟨hshape, p, hp, rfl⟩
    · simp [Method.LocalsApart, hnone]
    · simp [Method.LocalsApart, hformals]
    · rw [localsApart_factoryMethod hb hp]
      rintro ⟨hreflective, hname⟩
      obtain ⟨q, hparams⟩ := params_of_factory hshape
      rw [hparams, List.mem_singleton] at hp
      exact hcatches ⟨hreflective, hshape, by rw [hparams, ← hp, List.map_singleton, hname]⟩

/--
In a file that is generated only the reflective making of the target declares variables, which are
the constructor and the exception that is caught, each in a line of its own. No method has an
argument called like one of its variables unless the file is a factory by reflection whose parameter
is called like the exception.
-/
theorem locals_apart_iff {text : String} (h : b.source s = .ok text) :
    text = (b.unit s).text b.ownNames ∧
    (∀ m ∈ (b.unit s).allMethods, ∀ x ∈ m.locals,
      b.construction = .reflective ∧ b.construct s ∈ m.body ∧
        (x = Reflection.handle ∨ x = Reflection.failure) ∧
        ∀ names, ∃ line ∈ m.body.flatMap (·.marks names), DeclaresIn x line) ∧
    ((∀ m ∈ (b.unit s).allMethods, m.LocalsApart) ↔ ¬ b.CatchesParameter) ∧
    ((∀ p ∈ b.params, p.name ≠ Reflection.failure) →
      ∀ m ∈ (b.unit s).allMethods, m.LocalsApart) := by
  have hapart : (∀ m ∈ (b.unit s).allMethods, m.LocalsApart) ↔ ¬ b.CatchesParameter :=
    localsApart_iff (wellNamed_of_source h)
  refine ⟨(of_source_eq_ok h).2, fun m hm x hx => ?_, hapart, fun hnames => hapart.2 ?_⟩
  · obtain ⟨hreflective, hconstruct, hname⟩ := reflective_of_locals hm hx
    refine ⟨hreflective, hconstruct, hname, fun names => ?_⟩
    obtain ⟨st, hst, hx⟩ := List.mem_flatMap.1 hx
    obtain ⟨line, hline, hdeclares⟩ := st.exists_declaresIn hx names
    exact ⟨line, List.mem_flatMap.2 ⟨st, hst, hline⟩, hdeclares⟩
  · rintro ⟨-, -, hname⟩
    obtain ⟨p, hparams, hp⟩ := List.map_eq_singleton_iff.1 hname
    exact hnames p (hparams ▸ List.mem_singleton_self p) hp

def ellipse : Builder where
  target := "me.Ellipse"
  name := "me.builder.EllipseBuilder"
  params := [
    { name := "e", type := .parsed (.leaf "double") },
    { name := "a", type := .parsed (.leaf "double") }]
  construction := .reflective

theorem ellipse_locals_apart :
    ellipse.source {} = .ok ((ellipse.unit {}).text ellipse.ownNames) ∧
      ellipse.params.map (·.name) = [Reflection.failure, "a"] ∧
      ∀ m ∈ (ellipse.unit {}).allMethods, m.LocalsApart := by
  have hsource : ellipse.source {} = .ok ((ellipse.unit {}).text ellipse.ownNames) := rfl
  obtain ⟨-, -, hapart, -⟩ := locals_apart_iff hsource
  exact ⟨hsource, rfl, hapart.2 fun hcatches => nomatch hcatches.2.2⟩

def charge : Builder where
  target := "me.Charge"
  name := "me.builder.ChargeBuilder"
  params := [{ name := "e", type := .parsed (.leaf "int") }]
  construction := .reflective
  copy := false

theorem charge_caught :
    (¬ ∀ (s : SupportClasses) (b : Builder) (text : String),
      (∀ p ∈ b.params, isIdentifier p.name = true) → b.source s = .ok text →
        ∀ m ∈ (b.unit s).allMethods, m.LocalsApart) ∧
    charge.source {} = .ok ((charge.unit {}).text charge.ownNames) ∧
    ∃ m ∈ (charge.unit {}).allMethods, m.formals.map (·.text id) = ["int e"] ∧
      .line "| java.lang.IllegalAccessException e) \x7b" ∈ m.body.flatMap (·.marks id) := by
  refine ⟨?_, rfl, _, .tail _ (.head _), rfl, by decide +kernel⟩
  intro h
  have hapart := h {} charge _ (by decide +kernel) rfl
  have hwell : charge.WellNamed := wellNamed_of_source (s := {}) rfl
  exact (localsApart_iff hwell).1 hapart ⟨rfl, rfl, rfl⟩

end Builder

end StagedBuilder
