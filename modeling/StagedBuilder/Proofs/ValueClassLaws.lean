import StagedBuilder.Proofs.ErasureLaws
import StagedBuilder.Proofs.LineLaws
import StagedBuilder.Proofs.NameReading
import StagedBuilder.Proofs.NullPolicyLaws
import StagedBuilder.Proofs.SyntaxLaws
import StagedBuilder.Proofs.ValueExecution
import StagedBuilder.Proofs.ValueFlow

/-!
Implementations are values: what their constructor is given is what their accessors give, and it is
all that they are compared, hashed and printed by.
-/

namespace StagedBuilder

open Java Text

namespace Java

section Construction

variable {f : Frame} {h : Heap} {types : Types} {invoke : Invoke} {address : Nat}
  {c : NestedClass} {values old : Parameter → Value} {ps all : List Parameter}

theorem Frame.checkNotNull_ok {names : List String}
    (hdefined : ∀ n ∈ names, ∃ v, f.locals.lookup n = some v ∧ v ≠ .null) :
    f.checkNotNull names h = .ok () h := by
  induction names with
  | nil => rfl
  | cons n names ih =>
    obtain ⟨⟨v, hv, hnull⟩, hdefined⟩ := List.forall_mem_cons.1 hdefined
    have hpresent : v.isNull = false := by
      rw [← Bool.not_eq_true]
      exact mt Value.eq_null hnull
    rw [Frame.checkNotNull, Exec.bind_ok (Frame.variable_local hv), hpresent]
    exact ih hdefined

theorem runBody_assigns (hself : f.self = some address)
    (hvalues : ∀ p ∈ ps, f.locals.lookup p.name = some (values p))
    (hdistinct : (all.map (·.name)).Nodup) (hps : ∀ p ∈ ps, p ∈ all)
    (hobject : h[address]? = some ⟨c, all.map fun p => (p.name, old p)⟩) (rest : List Stmt) :
    runBody types invoke f
        (ps.map (fun p => .step (.assign .this p.name (.name p.name))) ++ rest) h =
      runBody types invoke f rest (h.set address
        ⟨c, all.map fun p => (p.name, if p ∈ ps then values p else old p)⟩) := by
  induction ps generalizing old h with
  | nil =>
    obtain ⟨hlt, hat⟩ := List.getElem?_eq_some_iff.1 hobject
    simp [← hat]
  | cons p ps ih =>
    obtain ⟨hvalue, hvalues⟩ := List.forall_mem_cons.1 hvalues
    obtain ⟨hp, hps⟩ := List.forall_mem_cons.1 hps
    let held (q : Parameter) : Value := if q.name = p.name then values p else old q
    have hvalue : (Expr.name p.name).eval invoke f h = .ok (values p) h :=
      Frame.variable_local hvalue
    have howner : Expr.this.eval invoke f h = .ok (.object address) h := by
      rw [Expr.eval, hself]
      rfl
    have hstored : (h.set address ⟨c, all.map fun q => (q.name, held q)⟩)[address]? =
        some ⟨c, all.map fun q => (q.name, held q)⟩ :=
      List.getElem?_set_self (List.getElem?_eq_some_iff.1 hobject).1
    have hboth : ∀ q ∈ all, (if q ∈ ps then values q else held q) =
        if q ∈ p :: ps then values q else old q := by
      intro q hq
      have hname : q.name = p.name ↔ q = p :=
        ⟨List.inj_on_of_nodup_map hdistinct hq hp, congrArg Parameter.name⟩
      by_cases hsame : q = p
      · simp [held, hsame]
      · simp [held, hname, hsame]
    rw [List.map_cons, List.cons_append, runBody_assign howner hvalue
      (Builder.Holds.writeField_values hp (values p) hobject), ih hvalues hps hstored, List.set_set]
    rw [List.map_congr_left fun q hq => by rw [hboth q hq]]

end Construction

end Java

namespace Implementation

variable {s : SupportClasses} {i : Implementation} {m : Method} {p : Parameter}

def finish (i : Implementation) (invoke : Invoke) : Exec Value :=
  match i.check with
  | none => pure .null
  | some c => do
    let _ ← invoke (.static c) []
    pure .null

/-- The constructor refuses null before anything else, then it assigns each field once, in their
order, what was passed for it, and then it calls the check method if there is one. -/
structure Constructs (i : Implementation) (m : Method) : Prop where
  formals : m.formals.map (·.name) = i.params.map (·.name)
  assigns : m.body.flatMap Builder.assignments = i.params.map fun p => (.this, p.name)
  refuses (values : Parameter → Value) (null : ∃ p ∈ i.refusing, values p = .null) (types : Types)
    (invoke : Invoke) (self : Option Nat) (h : Heap) :
    runBody types invoke (m.frame self (i.params.map values)) m.body h = .refused h
  runs (values old : Parameter → Value) (accepted : ∀ p ∈ i.refusing, values p ≠ .null)
    (types : Types) (invoke : Invoke) (address : Nat) (c : NestedClass) (h : Heap)
    (object : h[address]? = some ⟨c, i.params.map fun p => (p.name, old p)⟩) :
    runBody types invoke (m.frame (some address) (i.params.map values)) m.body h =
      i.finish invoke (h.set address ⟨c, i.params.map fun p => (p.name, values p)⟩)

section Construction

def ending (i : Implementation) : List Stmt :=
  (i.check.map fun c => .step (.eval (.call (.method .implicit c) []))).toList

theorem runBody_ending (types : Types) (f : Frame) (invoke : Invoke) (h : Heap) :
    runBody types invoke f i.ending h = i.finish invoke h := by
  unfold ending finish
  cases i.check with
  | none => rfl
  | some c => rfl

theorem assignments_ending : i.ending.flatMap Builder.assignments = [] := by
  unfold ending
  cases i.check with
  | none => rfl
  | some c => rfl

theorem body_constructor : (i.constructor s).body =
    .step (.nullChecks s.preconditions (i.refusing.map (·.name))) ::
      (i.params.map (fun p => .step (.assign .this p.name (.name p.name))) ++ i.ending) := by
  unfold constructor refusing ending
  simp only [NullPolicy.needsNullCheck_eq, List.cons_append]

theorem constructs_constructor (hdistinct : (i.params.map (·.name)).Nodup) :
    i.Constructs (i.constructor s) where
  formals := isConstructor_constructor.formals
  assigns := by
    rw [body_constructor, List.flatMap_cons, List.flatMap_append, assignments_ending,
      List.append_nil, List.flatMap_map]
    exact List.map_eq_flatMap.symm
  refuses := by
    rintro values ⟨p, hp, hnull⟩ types invoke self h
    exact isConstructor_constructor.refused hdistinct hp hnull types invoke self h
  runs values old haccepted types invoke address c h hobject := by
    have hlookup : ∀ q ∈ i.params, ((i.constructor s).frame (some address)
        (i.params.map values)).locals.lookup q.name = some (values q) :=
      fun q => isConstructor_constructor.lookup hdistinct values (some address)
    rw [body_constructor, runBody, Exec.bind_ok (Frame.checkNotNull_ok ?_),
      runBody_assigns rfl hlookup hdistinct (fun _ hq => hq) hobject, runBody_ending,
      List.map_congr_left fun q hq => by rw [if_pos hq]]
    rw [List.forall_mem_map]
    exact fun q hq => ⟨_, hlookup q (List.mem_of_mem_filter hq), haccepted q hq⟩

end Construction

theorem filter_name (hdistinct : (i.params.map (·.name)).Nodup) (hp : p ∈ i.params) :
    i.params.filter (·.name = p.name) = [p] := by
  have hsame : ∀ q ∈ i.params, decide (q.name = p.name) = decide (q = p) := by
    intro q hq
    rw [decide_eq_decide]
    exact ⟨List.inj_on_of_nodup_map hdistinct hq hp, congrArg Parameter.name⟩
  rw [List.filter_congr hsame, List.filter_eq,
    List.count_eq_one_of_mem hdistinct.of_map hp, List.replicate_one]

theorem filter_answers (n : String) : (i.unit s).methods.filter (Method.answers n 0) =
    (i.params.filter (·.name = n)).map (accessor s) ++
      [i.toStringMethod, i.hashCodeMethod].filter (·.name = n) := by
  have haccessors : (i.params.map (accessor s)).filter (Method.answers n 0) =
      (i.params.filter (·.name = n)).map (accessor s) := by
    rw [List.filter_map]
    refine congrArg (List.map _) (List.filter_congr fun p _ => ?_)
    simp [Method.answers, accessor]
    rfl
  have hconstructor : Method.answers n 0 (i.constructor s) = false := rfl
  have hfactory : Method.answers n 0 i.factory = false := rfl
  have hequals : Method.answers n 0 i.equalsMethod = false := by
    simp [Method.answers, equalsMethod]
  have hothers : ∀ m ∈ [i.toStringMethod, i.hashCodeMethod],
      Method.answers n 0 m = decide (m.name = n) := by
    simp [Method.answers, toStringMethod, hashCodeMethod]
  rw [methods_unit, List.filter_append, List.filter_cons_of_neg (by simp [hconstructor]),
    List.filter_cons_of_neg (by simp [hfactory]), haccessors, ← List.filter_congr hothers,
    List.filter_cons, List.filter_cons_of_neg (by simp [hequals]), ← List.filter_cons]

theorem filter_answers_equals :
    (i.unit s).methods.filter (Method.answers "equals" 1) = [i.equalsMethod] := by
  have haccessors : (i.params.map (accessor s)).filter (Method.answers "equals" 1) = [] := by
    rw [List.filter_eq_nil_iff, List.forall_mem_map]
    intro p _
    simp [Method.answers, accessor]
  have hconstructor : Method.answers "equals" 1 (i.constructor s) = false := rfl
  have hfactory : Method.answers "equals" 1 i.factory = false := rfl
  rw [methods_unit, List.filter_append, List.filter_cons_of_neg (by simp [hconstructor]),
    List.filter_cons_of_neg (by simp [hfactory]), haccessors]
  rfl

theorem length_filter_answers {n : String} (hn : n ∈ ["toString", "hashCode"]) :
    ((i.unit s).methods.filter (Method.answers n 0)).length = 1 ↔
      n ∉ i.params.map (·.name) := by
  have hown : ([i.toStringMethod, i.hashCodeMethod].filter (·.name = n)).length = 1 := by
    rcases List.mem_pair.1 hn with rfl | rfl
    · rfl
    · rfl
  rw [filter_answers, List.length_append, hown, List.length_map, Nat.add_eq_right,
    List.length_eq_zero_iff, List.filter_eq_nil_iff, List.mem_map]
  simp

def held (i : Implementation) : List Field :=
  i.params.map fun p => { isFinal := true, type := p.typeRef, name := p.name }

structure Instance {V : Type} (w : World V) (i : Implementation) (x : V) (values : Parameter → V) :
    Prop where
  present : x ≠ w.null
  type : w.classOf x = i.simpleName
  fields : w.fields x = i.params.map fun p => (p.name, values p)

section Values

variable {V : Type} [DecidableEq V] {w : World V} {x y : V} {values values' : Parameter → V}
  {locals : List (String × Datum V)} {f : Scope V}

omit [DecidableEq V] in
theorem find?_held (hdistinct : (i.params.map (·.name)).Nodup) (hp : p ∈ i.params) :
    (i.held.find? (·.name = p.name)).map (·.type) = some p.typeRef := by
  have hfound : i.params.find? (·.name = p.name) = some p := by
    rw [← List.head?_filter, filter_name hdistinct hp, List.head?_cons]
  have hheld : i.held.find? (·.name = p.name) = (i.params.find? (·.name = p.name)).map fun q =>
      { isFinal := true, type := q.typeRef, name := q.name } := List.find?_map
  rw [hheld, hfound]
  rfl

omit [DecidableEq V] in
theorem Instance.lookup (hx : Instance w i x values) (hdistinct : (i.params.map (·.name)).Nodup)
    (hp : p ∈ i.params) : (w.fields x).lookup p.name = some (values p) := by
  rw [hx.fields]
  exact Builder.Holds.lookup_values hdistinct hp

omit [DecidableEq V] in
theorem Instance.find (hx : Instance w i x values) (hdistinct : (i.params.map (·.name)).Nodup)
    (hp : p ∈ i.params) : Scope.find w ⟨x, i.held, []⟩ p.name = some (.value (values p)) := by
  rw [Scope.find, List.lookup_nil, hx.lookup hdistinct hp]
  rfl

theorem Instance.datum_field {e : Expr} (hx : Instance w i x values)
    (hdistinct : (i.params.map (·.name)).Nodup) (hp : p ∈ i.params)
    (he : e.datum w f = some (.value x)) :
    (Expr.field e p.name).datum w f = some (.value (values p)) := by
  simp [Expr.datum, he, hx.lookup hdistinct hp]

theorem Instance.given_accessor (hx : Instance w i x values)
    (hdistinct : (i.params.map (·.name)).Nodup) (hp : p ∈ i.params) (hm : IsAccessor s m p) :
    m.given w i.held x [] = some (.value (values p)) := by
  have hvalue : (Expr.name p.name).datum w ⟨x, i.held, []⟩ = some (.value (values p)) :=
    hx.find hdistinct hp
  rw [Method.given, hm.formals, hm.body]
  simp [given, Stmt.flow, Step.flow, hvalue]

def hashedAs (w : World V) (i : Implementation) (values : Parameter → V) : Int32 :=
  w.hashed (i.params.map fun p => some p.typeRef) (i.params.map values)

theorem Instance.given_hashCode (hx : Instance w i x values)
    (hdistinct : (i.params.map (·.name)).Nodup) :
    i.hashCodeMethod.given w i.held x [] = some (.number (hashedAs w i values)) := by
  let f : Scope V := ⟨x, i.held, []⟩
  have hargs : Expr.datums w f (Expr.names (i.params.map (·.name))) =
      some (i.params.map fun p => .value (values p)) := by
    rw [Expr.names, List.map_map]
    exact Expr.datums_map fun p hp => hx.find hdistinct hp
  have htypes : (Expr.names (i.params.map (·.name))).map f.typeOf =
      i.params.map fun p => some p.typeRef := by
    rw [Expr.names, List.map_map, List.map_map]
    exact List.map_congr_left fun p hp => find?_held hdistinct hp
  have hvalue : (Expr.call (.method (.static objectsClass) "hash")
      (Expr.names (i.params.map (·.name)))).datum w f = some (.number (hashedAs w i values)) := by
    rw [Expr.datum]
    change (Expr.datums w f (Expr.names (i.params.map (·.name)))).bind _ = _
    rw [hargs, Option.bind_some, Callee.datum, htypes, hashedAs, ← library_hash, List.map_map]
    rfl
  exact given_ret hvalue

def printed (entry : Parameter → String) (lead : String) : List Parameter → String
  | [] => ""
  | p :: ps => lead ++ entry p ++ printed entry ", " ps

theorem printed_comma (entry : Parameter → String) (p : Parameter) (ps : List Parameter) :
    printed entry ", " (p :: ps) = ", " ++ printed entry "" (p :: ps) := by
  rw [printed, printed, String.empty_append, String.append_assoc]

theorem printed_eq_intercalate (entry : Parameter → String) (ps : List Parameter) :
    printed entry "" ps = ", ".intercalate (ps.map entry) := by
  induction ps with
  | nil => rfl
  | cons p ps ih =>
    rw [printed, String.empty_append]
    cases ps with
    | nil => rw [printed, String.append_empty, List.map_singleton, String.intercalate_singleton]
    | cons q ps =>
      rw [printed_comma, ih, List.map_cons, List.map_cons, List.map_cons,
        String.intercalate_cons_cons, String.append_assoc]

theorem datum_valueOf (hx : Instance w i x values) (hdistinct : (i.params.map (·.name)).Nodup)
    (hp : p ∈ i.params) (hself : f.self = x) (hfields : f.fields = i.held) :
    (Expr.call (.method (.static stringClass) "valueOf") [.field .this p.name]).datum w f =
      (w.spelled (some p.typeRef) (values p)).map .text := by
  have hthis : Expr.this.datum w f = some (.value x) := by
    rw [Expr.datum, hself]
  have htype : f.typeOf (.field .this p.name) = some p.typeRef := by
    rw [Scope.typeOf, hfields]
    exact find?_held hdistinct hp
  rw [Expr.datum, Expr.datums, hx.datum_field hdistinct hp hthis, List.map_singleton, htype]
  exact library_valueOf _ _

/-- The text in the variable grows by what is printed of the parameters. -/
theorem given_textParts (hx : Instance w i x values) (hdistinct : (i.params.map (·.name)).Nodup)
    {ps : List Parameter} (hps : ∀ p ∈ ps, p ∈ i.params) (hself : f.self = x)
    (hfields : f.fields = i.held) {texts : Parameter → String}
    (htexts : ∀ p ∈ ps, w.spelled (some p.typeRef) (values p) = some (texts p)) {t : String}
    (htext : f.locals.lookup "b" = some (.text t)) (lead : String) (rest : List Stmt) :
    ∃ f' : Scope V, f'.locals.lookup "b" =
        some (.text (t ++ printed (fun p => p.name ++ "=" ++ texts p) lead ps)) ∧
      given w f (textParts lead ps ++ rest) = given w f' rest := by
  induction ps generalizing f t lead with
  | nil => exact ⟨f, by rw [htext, printed, String.append_empty], rfl⟩
  | cons p ps ih =>
    obtain ⟨hp, hps⟩ := List.forall_mem_cons.1 hps
    obtain ⟨hspelled, htexts⟩ := List.forall_mem_cons.1 htexts
    let named := t ++ (lead ++ p.name ++ "=")
    let f₁ := f.push "b" (.text named)
    have hnamed : f₁.locals.lookup "b" = some (.text named) := rfl
    have hvalue := datum_valueOf (f := f₁) hx hdistinct hp hself hfields
    rw [hspelled, Option.map_some] at hvalue
    obtain ⟨f', hf', hgiven⟩ :=
      ih hps (f := f₁.push "b" (.text (named ++ texts p))) hself hfields htexts rfl ", "
    refine ⟨f', ?_, ?_⟩
    · rw [hf']
      simp only [named, printed, String.append_assoc]
    · rw [textParts, List.cons_append, List.cons_append, append, given_append htext rfl, append,
        given_append hnamed hvalue]
      exact hgiven

theorem given_textParts_none (hx : Instance w i x values)
    (hdistinct : (i.params.map (·.name)).Nodup) {ps : List Parameter}
    (hps : ∀ p ∈ ps, p ∈ i.params) (hself : f.self = x) (hfields : f.fields = i.held)
    (hnone : ∃ p ∈ ps, w.spelled (some p.typeRef) (values p) = none) {t : String}
    (htext : f.locals.lookup "b" = some (.text t)) (lead : String) (rest : List Stmt) :
    given w f (textParts lead ps ++ rest) = none := by
  induction ps generalizing f t lead with
  | nil =>
    obtain ⟨p, hp, -⟩ := hnone
    cases hp
  | cons p ps ih =>
    obtain ⟨hp, hps⟩ := List.forall_mem_cons.1 hps
    let named := t ++ (lead ++ p.name ++ "=")
    let f₁ := f.push "b" (.text named)
    have hnamed : f₁.locals.lookup "b" = some (.text named) := rfl
    have hvalue := datum_valueOf (f := f₁) hx hdistinct hp hself hfields
    rw [textParts, List.cons_append, List.cons_append, append, given_append htext rfl, append]
    cases hspelled : w.spelled (some p.typeRef) (values p) with
    | none =>
      rw [hspelled] at hvalue
      exact given_append_none hvalue
    | some text =>
      rw [hspelled] at hvalue
      have hlater : ∃ q ∈ ps, w.spelled (some q.typeRef) (values q) = none := by
        obtain ⟨q, hq, hnone⟩ := hnone
        rcases List.mem_cons.1 hq with rfl | hq
        · rw [hspelled] at hnone
          cases hnone
        · exact ⟨q, hq, hnone⟩
      rw [given_append hnamed hvalue]
      exact ih hps (f := f₁.push "b" (.text (named ++ text))) hself hfields hlater rfl ", "

def printedAs (i : Implementation) (texts : Parameter → String) : String :=
  i.simpleName ++ "[" ++ ", ".intercalate (i.params.map fun p => p.name ++ "=" ++ texts p) ++ "]"

theorem Instance.given_toString (hx : Instance w i x values)
    (hdistinct : (i.params.map (·.name)).Nodup) {texts : Parameter → String}
    (htexts : ∀ p ∈ i.params, w.spelled (some p.typeRef) (values p) = some (texts p)) :
    i.toStringMethod.given w i.held x [] = some (.text (printedAs i texts)) := by
  let text := TypeRef.reference textBuilderClass
  let ret := Stmt.step (.ret (.call (.method (.value "b") "toString") []))
  let f₀ : Scope V := Scope.push ⟨x, i.held, []⟩ "b" (.text "")
  let f₁ := f₀.push "b" (.text ("" ++ (i.simpleName ++ "[")))
  have hbuilder : (Expr.call (.constructor text) []).datum w ⟨x, i.held, []⟩ = some (.text "") :=
    rfl
  obtain ⟨f, hf, hparts⟩ := given_textParts (f := f₁) hx hdistinct (fun _ hp => hp) rfl rfl htexts
    rfl "" [append (.quoted "]"), ret]
  rw [printed_eq_intercalate, String.empty_append] at hf
  have hclosed : (Expr.call (.method (.value "b") "toString") []).datum w
      (f.push "b" (.text (printedAs i texts))) = some (.text (printedAs i texts)) := rfl
  calc
    i.toStringMethod.given w i.held x [] =
        given w f₀ (append (.quoted (i.simpleName ++ "[")) ::
          (textParts "" i.params ++ [append (.quoted "]"), ret])) := given_declare hbuilder
    _ = given w f₁ (textParts "" i.params ++ [append (.quoted "]"), ret]) := given_append rfl rfl
    _ = given w f [append (.quoted "]"), ret] := hparts
    _ = given w (f.push "b" (.text (printedAs i texts))) [ret] := given_append hf rfl
    _ = some (.text (printedAs i texts)) := given_ret hclosed

theorem Instance.given_toString_none (hx : Instance w i x values)
    (hdistinct : (i.params.map (·.name)).Nodup)
    (hnone : ∃ p ∈ i.params, w.spelled (some p.typeRef) (values p) = none) :
    i.toStringMethod.given w i.held x [] = none := by
  let text := TypeRef.reference textBuilderClass
  let f₀ : Scope V := Scope.push ⟨x, i.held, []⟩ "b" (.text "")
  let f₁ := f₀.push "b" (.text ("" ++ (i.simpleName ++ "[")))
  have hbuilder : (Expr.call (.constructor text) []).datum w ⟨x, i.held, []⟩ = some (.text "") :=
    rfl
  calc
    i.toStringMethod.given w i.held x [] =
        given w f₀ (append (.quoted (i.simpleName ++ "[")) :: (textParts "" i.params ++ _)) :=
      given_declare hbuilder
    _ = given w f₁ (textParts "" i.params ++ _) := given_append rfl rfl
    _ = none := given_textParts_none (f := f₁) hx hdistinct (fun _ hp => hp) rfl rfl hnone rfl "" _

theorem body_equalsMethod (hparams : i.params ≠ []) : i.equalsMethod.body = [
    .when (.binary "==" .this (.name "o")) [.ret (.truth true)],
    .when (.binary "||" (.binary "==" (.name "o") .null)
      (.binary "!=" (.call (.method .implicit "getClass") [])
        (.call (.method (.value "o") "getClass") []))) [.ret (.truth false)],
    .step (.declare (.written i.simpleName) "other" (.cast i.simpleName (.name "o"))),
    .step (.retAll (i.params.map sameValue))] := by
  obtain ⟨p, ps, hps⟩ := List.exists_cons_of_ne_nil hparams
  rw [equalsMethod, hps]

theorem datum_identity :
    (Expr.binary "==" .this (.name "o")).datum w ⟨x, i.held, [("o", .value y)]⟩ =
      some (.truth (decide (x = y))) := rfl

theorem datum_foreign (hx : x ≠ w.null) :
    (Expr.binary "||" (.binary "==" (.name "o") .null)
      (.binary "!=" (.call (.method .implicit "getClass") [])
        (.call (.method (.value "o") "getClass") []))).datum w ⟨x, i.held, [("o", .value y)]⟩ =
      some (.truth (decide (y = w.null) || !decide (w.classOf x = w.classOf y))) := by
  have hnull : (Expr.binary "==" (.name "o") .null).datum w ⟨x, i.held, [("o", .value y)]⟩ =
      some (.truth (decide (y = w.null))) := rfl
  have hown : (Expr.call (.method .implicit "getClass") []).datum w ⟨x, i.held, [("o", .value y)]⟩ =
      some (.type (w.classOf x)) := if_pos ⟨rfl, hx⟩
  rw [Expr.datum, hnull]
  by_cases hy : y = w.null
  · simp [hy]
  · have hother : (Expr.call (.method (.value "o") "getClass") []).datum w
        ⟨x, i.held, [("o", .value y)]⟩ = some (.type (w.classOf y)) := if_pos ⟨rfl, hy⟩
    have hclasses : (Expr.binary "!=" (.call (.method .implicit "getClass") [])
        (.call (.method (.value "o") "getClass") [])).datum w ⟨x, i.held, [("o", .value y)]⟩ =
          some (.truth !decide (w.classOf x = w.classOf y)) := by
      rw [Expr.datum, hown, hother]
      rfl
    simp [hy, hclasses]

theorem Instance.given_equals_other (hx : Instance w i x values) (hparams : i.params ≠ [])
    (hother : y = w.null ∨ w.classOf y ≠ i.simpleName) :
    i.equalsMethod.given w i.held x [.value y] = some (.truth false) := by
  have hdiffer : x ≠ y := by
    rintro rfl
    exact hother.elim hx.present fun hclass => hclass hx.type
  have hidentity : (Expr.binary "==" .this (.name "o")).datum w ⟨x, i.held, [("o", .value y)]⟩ =
      some (.truth false) := by
    rw [datum_identity, decide_eq_false hdiffer]
  have hforeign := datum_foreign (i := i) (y := y) hx.present
  have htrue : (decide (y = w.null) || !decide (w.classOf x = w.classOf y)) = true := by
    rcases hother with hnull | hclass
    · simp [hnull]
    · simp [hx.type, hclass.symm]
  rw [htrue] at hforeign
  rw [Method.given, body_equalsMethod hparams]
  exact (given_when_false hidentity).trans (given_when_true hforeign rfl)

theorem datum_sameValue (hx : Instance w i x values) (hy : Instance w i y values')
    (hdistinct : (i.params.map (·.name)).Nodup) (hp : p ∈ i.params) :
    (sameValue p).datum w ⟨x, i.held, [("other", .value y), ("o", .value y)]⟩ =
      some (.truth (w.equal (values p) (values' p))) := by
  have hother : (Expr.name "other").datum w ⟨x, i.held, [("other", .value y), ("o", .value y)]⟩ =
      some (.value y) := rfl
  rw [sameValue, Expr.datum, Expr.datums, hx.datum_field hdistinct hp rfl, Expr.datums,
    hy.datum_field hdistinct hp hother]
  rfl

theorem Instance.given_equals (hx : Instance w i x values) (hy : Instance w i y values')
    (hdistinct : (i.params.map (·.name)).Nodup) (hparams : i.params ≠ []) :
    i.equalsMethod.given w i.held x [.value y] =
      some (.truth (decide (x = y) || i.params.all fun p => w.equal (values p) (values' p))) := by
  let f : Scope V := ⟨x, i.held, [("o", .value y)]⟩
  have hidentity : (Expr.binary "==" .this (.name "o")).datum w f =
      some (.truth (decide (x = y))) := datum_identity
  have hforeign := datum_foreign (i := i) (y := y) hx.present
  rw [hx.type, hy.type, decide_eq_false hy.present, decide_eq_true rfl] at hforeign
  have hcast : (Expr.cast i.simpleName (.name "o")).datum w f = some (.value y) :=
    if_pos (.inr hy.type)
  have hall : Expr.all w (f.push "other" (.value y)) (i.params.map sameValue) =
      some (i.params.all fun p => w.equal (values p) (values' p)) :=
    Expr.all_map fun p hp => datum_sameValue hx hy hdistinct hp
  rw [Method.given, body_equalsMethod hparams]
  by_cases hsame : x = y
  · rw [decide_eq_true hsame] at hidentity ⊢
    exact given_when_true hidentity rfl
  · rw [decide_eq_false hsame] at hidentity ⊢
    refine (given_when_false hidentity).trans ?_
    refine (given_when_false hforeign).trans ?_
    refine (given_declare hcast).trans ?_
    apply given_of_gives
    rw [Stmt.flow, Step.flow, hall]
    rfl

omit [DecidableEq V] in
theorem same_or_all_equal (hw : w.Lawful) (hx : Instance w i x values)
    (hy : Instance w i y values') (hdistinct : (i.params.map (·.name)).Nodup) [Decidable (x = y)] :
    (decide (x = y) || i.params.all fun p => w.equal (values p) (values' p)) =
      i.params.all fun p => w.equal (values p) (values' p) := by
  by_cases hsame : x = y
  · have hall : (i.params.all fun p => w.equal (values p) (values' p)) = true := by
      rw [List.all_eq_true]
      intro p hp
      have hfield : some (values p) = some (values' p) := by
        rw [← hx.lookup hdistinct hp, ← hy.lookup hdistinct hp, hsame]
      rw [Option.some.inj hfield]
      exact hw.equal_self _
    rw [hall, Bool.or_true]
  · rw [decide_eq_false hsame, Bool.false_or]

omit [DecidableEq V] in
theorem hashedAs_congr (hw : w.Lawful)
    (hequal : ∀ p ∈ i.params, w.equal (values p) (values' p) = true) :
    hashedAs w i values = hashedAs w i values' := by
  apply hw.hashed_congr
  rw [List.forall₂_map_left_iff, List.forall₂_map_right_iff, List.forall₂_same]
  exact hequal

/-- Methods of all objects that the class overrides or that an accessor cannot override. -/
def inherited : List String :=
  ["finalize", "getClass", "hashCode", "notify", "notifyAll", "toString", "wait"]

/-- What is asked of an object of the class is answered by the values of its fields alone. -/
structure IsValue (u : SourceUnit) (w : World V) (i : Implementation) (x : V)
    (values : Parameter → V) : Prop where
  gives : ∀ p ∈ i.params, u.asked w x p.name [] = some (.value (values p))
  prints (texts : Parameter → String)
    (spelled : ∀ p ∈ i.params, w.spelled (some p.typeRef) (values p) = some (texts p)) :
    u.asked w x "toString" [] = some (.text (i.printedAs texts))
  refuses (unspelled : ∃ p ∈ i.params, w.spelled (some p.typeRef) (values p) = none) :
    u.asked w x "toString" [] = none
  hashes : u.asked w x "hashCode" [] = some (.number (hashedAs w i values))
  foreign (y : V) (other : y = w.null ∨ w.classOf y ≠ i.simpleName) :
    u.asked w x "equals" [.value y] = some (.truth false)
  compares (y : V) (values' : Parameter → V) (same : Instance w i y values') :
    u.asked w x "equals" [.value y] =
      some (.truth (decide (x = y) || i.params.all fun p => w.equal (values p) (values' p)))

theorem asked_eq {u : SourceUnit} {name : String} {args : List (Datum V)}
    (h : u.methods.filter (Method.answers name args.length) = [m]) :
    u.asked w x name args = m.given w (u.fields.getD []) x args := by
  rw [SourceUnit.asked, h]

theorem Instance.isValue (hx : Instance w i x values) (hdistinct : (i.params.map (·.name)).Nodup)
    (hparams : i.params ≠ []) (hnames : ∀ p ∈ i.params, p.name ∉ inherited) :
    IsValue (i.unit s) w i x values := by
  have hfree {n : String} (hn : n ∈ inherited) : i.params.filter (·.name = n) = [] := by
    rw [List.filter_eq_nil_iff]
    intro p hp hname
    exact hnames p hp (of_decide_eq_true hname ▸ hn)
  have hprint : (i.unit s).methods.filter (Method.answers "toString" 0) = [i.toStringMethod] := by
    rw [filter_answers, hfree (by decide)]
    rfl
  have hhash : (i.unit s).methods.filter (Method.answers "hashCode" 0) = [i.hashCodeMethod] := by
    rw [filter_answers, hfree (by decide)]
    rfl
  constructor
  · intro p hp
    have hown : [i.toStringMethod, i.hashCodeMethod].filter (·.name = p.name) = [] := by
      rw [List.filter_eq_nil_iff]
      intro m hm hname
      refine hnames p hp (of_decide_eq_true hname ▸ ?_)
      rcases List.mem_pair.1 hm with rfl | rfl
      · exact (by decide : "toString" ∈ inherited)
      · exact (by decide : "hashCode" ∈ inherited)
    have hanswers : (i.unit s).methods.filter (Method.answers p.name 0) = [accessor s p] := by
      rw [filter_answers, filter_name hdistinct hp, hown]
      rfl
    exact (asked_eq hanswers).trans (hx.given_accessor hdistinct hp (isAccessor_accessor p))
  · intro texts htexts
    exact (asked_eq hprint).trans (hx.given_toString hdistinct htexts)
  · intro hnone
    exact (asked_eq hprint).trans (hx.given_toString_none hdistinct hnone)
  · exact (asked_eq hhash).trans (hx.given_hashCode hdistinct)
  · intro y hother
    exact (asked_eq filter_answers_equals).trans (hx.given_equals_other hparams hother)
  · intro y values' hy
    exact (asked_eq filter_answers_equals).trans (hx.given_equals hy hdistinct hparams)

end Values

theorem text_sameValue (names : Names) (p : Parameter) :
    (sameValue p).text names =
      names objectsClass ++ ".equals(this." ++ p.name ++ ", other." ++ p.name ++ ")" := by
  have hargs : Expr.texts names [.field .this p.name, .field (.name "other") p.name] =
      ["this" ++ "." ++ p.name, "other" ++ "." ++ p.name] := by
    simp only [Expr.texts, Expr.text]
  rw [sameValue, Expr.text, hargs, String.intercalate_cons_cons, String.intercalate_singleton]
  apply String.toList_injective
  simp [Callee.text]

theorem nestedClasses_unit : (i.unit s).nestedClasses = [] := by
  rw [unit, SourceUnit.nestedClasses, List.filterMap_map]
  exact List.filterMap_eq_nil_iff.2 fun _ _ => rfl

theorem fields_unit : ∃ fields, (i.unit s).fields = some fields ∧
    fields.map (·.name) = i.params.map (·.name) ∧ ∀ names, fields.map (·.text names) =
      i.params.map fun p => "private final " ++ p.typeRef.text names ++ " " ++ p.name ++ ";" := by
  refine ⟨_, rfl, List.map_map, fun names => ?_⟩
  rw [List.map_map]
  refine List.map_congr_left fun p _ => ?_
  simp [Field.text]

/--
An implementation has a field and an accessor for each parameter. Its constructor puts into the
fields what it is given, and that is what objects are asked for, compared, hashed and printed by.
No parameter may have the name of a method that all objects have, nor that of a class in use.
-/
theorem objects_are_values (s : SupportClasses) (i : Implementation) (text : String)
    (haccepted : i.source s = .ok text) (hparams : i.params ≠ []) :
    let u := i.unit s
    let names := (u.imports (.ofOwner i.name)).display
    let r := u.read names
    u.WrittenIn (.ofOwner i.name) text ∧ r.marks names = u.marks names ∧
    (i.params.map (·.name)).Nodup ∧ u.nestedClasses = [] ∧
    (∃ fields, u.fields = some fields ∧ fields.map (·.name) = i.params.map (·.name) ∧
      ∀ names, fields.map (·.text names) =
        i.params.map fun p => "private final " ++ p.typeRef.text names ++ " " ++ p.name ++ ";") ∧
    (∃ constructor create accessors toString equals hashCode,
      u.methods = constructor :: create :: accessors ++ [toString, equals, hashCode] ∧
      [toString.name, equals.name, hashCode.name] = ["toString", "equals", "hashCode"] ∧
      constructor.result = none ∧ create.isStatic = true ∧
      constructor.body = .step (.nullChecks s.preconditions (i.refusing.map (·.name))) ::
        (i.params.map (fun p => .step (.assign .this p.name (.name p.name))) ++ i.ending) ∧
      List.Forall₂ (IsAccessor s) accessors i.params ∧
      ∃ tests conditions, equals.body = tests ++ [.step (.retAll conditions)] ∧ ∀ names depth,
        squeeze (Sheet.laid depth ((Step.retAll conditions).marks names)).text.toList =
          squeeze ("return " ++ " && ".intercalate (i.params.map fun p =>
            names objectsClass ++ ".equals(this." ++ p.name ++ ", other." ++ p.name ++ ")") ++
              ";").toList) ∧
    (∀ n ∈ ["toString", "hashCode"],
      (u.methods.filter (Method.answers n 0)).length = 1 ↔ n ∉ i.params.map (·.name)) ∧
    (u.Unobscured names →
      (∀ m ∈ r.methods, m.result = none → i.Constructs m) ∧
      ((∀ p ∈ i.params, p.name ∉ inherited) →
        ∀ (V : Type) [DecidableEq V] (w : World V) (x : V) (values : Parameter → V),
          Instance w i x values → IsValue r w i x values ∧
            (w.Lawful → ∀ y values', Instance w i y values' →
              ((∀ p ∈ i.params, w.equal (values p) (values' p) = true) →
                r.asked w x "equals" [.value y] = some (.truth true) ∧
                  r.asked w x "hashCode" [] = r.asked w y "hashCode" []) ∧
              ((∃ p ∈ i.params, w.equal (values p) (values' p) = false) →
                r.asked w x "equals" [.value y] = some (.truth false))))) := by
  intro u names r
  obtain ⟨hcheck, htext⟩ := of_source_eq_ok haccepted
  have hdistinct : (i.params.map (·.name)).Nodup := (Builder.checkAfter_ok hcheck).1
  have hwritten : u.WrittenIn (.ofOwner i.name) text := by
    rw [htext]
    exact SourceUnit.writtenIn_text (complete_unit hparams)
  refine ⟨hwritten, u.marks_read, hdistinct, nestedClasses_unit, fields_unit,
    ⟨i.constructor s, i.factory, i.params.map (accessor s), i.toStringMethod, i.equalsMethod,
      i.hashCodeMethod, methods_unit, rfl, rfl, rfl, body_constructor, ?_, ?_⟩,
    fun n => length_filter_answers, fun hvisible => ?_⟩
  · rw [List.forall₂_map_left_iff, List.forall₂_same]
    exact fun p _ => isAccessor_accessor p
  · refine ⟨[_, _, _], i.params.map sameValue, body_equalsMethod hparams, fun names depth => ?_⟩
    rw [Step.squeeze_retAll (by simpa using hparams), Expr.texts_eq_map, List.map_map]
    simp only [Function.comp_def, text_sameValue]
  have hread : r = i.unit s := hvisible
  rw [hread]
  constructor
  · intro m hm hresult
    rw [constructor_of_mem hm hresult]
    exact constructs_constructor hdistinct
  · intro hnames V _ w x values hx
    have hvalue : IsValue (i.unit s) w i x values := hx.isValue hdistinct hparams hnames
    refine ⟨hvalue, fun hw y values' hy => ?_⟩
    have hequals := hvalue.compares y values' hy
    rw [same_or_all_equal hw hx hy hdistinct] at hequals
    constructor
    · intro hequal
      refine ⟨hequals.trans ?_, ?_⟩
      · rw [List.all_eq_true.2 hequal]
      · rw [hvalue.hashes, (hy.isValue hdistinct hparams hnames).hashes, hashedAs_congr hw hequal]
    · rintro ⟨p, hp, hdiffer⟩
      refine hequals.trans ?_
      rw [List.all_eq_false.2 ⟨p, hp, by simp [hdiffer]⟩]

def point : Implementation where
  interface := "me.Point"
  name := "me.builder.PointImpl"
  params := [{ name := "x", type := .verbatim "int" }, { name := "y", type := .verbatim "int" }]

inductive Plane
  | null
  | number (n : Int)
  | point (address : Nat) (x y : Int)
  deriving DecidableEq

namespace Plane

def equal : Plane → Plane → Bool
  | .point _ x y, .point _ x' y' => decide (x = x' ∧ y = y')
  | v, v' => decide (v = v')

def code : Plane → Int32
  | .null => 0
  | .number n => .ofInt n
  | .point _ x y => 31 * (31 + .ofInt x) + .ofInt y

def text : Plane → String
  | .null => "null"
  | .number n => toString n
  | .point _ x y => "PointImpl[x=" ++ toString x ++ ", y=" ++ toString y ++ "]"

def world : World Plane where
  null := .null
  classOf
    | .null => ""
    | .number _ => "Integer"
    | .point _ _ _ => "PointImpl"
  fields
    | .point _ x y => [("x", .number x), ("y", .number y)]
    | _ => []
  equal := equal
  hash vs := vs.foldl (fun h v => 31 * h + v.code) 1
  textOf := text
  elements _ := none
  chars _ := none

theorem code_eq_of_equal {v v' : Plane} (h : v.equal v' = true) : v.code = v'.code := by
  unfold equal at h
  split at h
  · obtain ⟨rfl, rfl⟩ := of_decide_eq_true h
    rfl
  · rw [of_decide_eq_true h]

theorem lawful_world : world.Lawful where
  equal_self v := by
    change equal v v = true
    cases v <;> simp [equal]
  elements_congr _ _ _ := rfl
  hash_congr vs vs' h := by
    change vs.foldl _ 1 = vs'.foldl _ 1
    generalize (1 : Int32) = seed
    induction h generalizing seed with
    | nil => rfl
    | cons hequal _ ih =>
      rw [List.foldl_cons, List.foldl_cons, code_eq_of_equal hequal]
      exact ih _

theorem instance_point (address : Nat) (x y : Int) :
    Instance world Implementation.point (.point address x y)
      (fun p => .number (if p.name = "x" then x else y)) where
  present := Plane.noConfusion
  type := rfl
  fields := rfl

end Plane

theorem points_compared :
    let u := point.unit {}
    let names := (u.imports (.ofOwner point.name)).display
    let r := u.read names
    (∃ text, point.source {} = .ok text ∧ u.WrittenIn (.ofOwner point.name) text) ∧
      point.params ≠ [] ∧ u.Unobscured names ∧ (∀ p ∈ point.params, p.name ∉ inherited) ∧
      Plane.world.Lawful ∧
      r.asked Plane.world (.point 1 3 4) "x" [] = some (.value (.number 3)) ∧
      r.asked Plane.world (.point 1 3 4) "toString" [] = some (.text "PointImpl[x=3, y=4]") ∧
      r.asked Plane.world (.point 1 3 4) "equals" [.value (.point 2 3 4)] = some (.truth true) ∧
      r.asked Plane.world (.point 1 3 4) "hashCode" [] =
        r.asked Plane.world (.point 2 3 4) "hashCode" [] ∧
      r.asked Plane.world (.point 1 3 4) "equals" [.value (.point 1 3 5)] =
        some (.truth false) := by
  intro u names r
  have hvisible : u.Unobscured names := SourceUnit.unobscured_of_clear (by decide +kernel)
  have hnames : ∀ p ∈ point.params, p.name ∉ inherited := by decide
  obtain ⟨hwritten, -, -, -, -, -, -, hread⟩ :=
    objects_are_values {} point _ rfl (List.cons_ne_nil _ _)
  obtain ⟨hvalue, hcompared⟩ :=
    (hread hvisible).2 hnames Plane Plane.world _ _ (Plane.instance_point 1 3 4)
  obtain ⟨hsame, -⟩ := hcompared Plane.lawful_world _ _ (Plane.instance_point 2 3 4)
  obtain ⟨hequal, hhash⟩ := hsame (by simp [Plane.world, Plane.equal])
  obtain ⟨-, hother⟩ := hcompared Plane.lawful_world _ _ (Plane.instance_point 1 3 5)
  have hdiffer : ∃ p ∈ point.params, Plane.world.equal
      (.number (if p.name = "x" then 3 else 4)) (.number (if p.name = "x" then 3 else 5)) = false :=
    ⟨{ name := "y", type := .verbatim "int" }, .tail _ (.head _), by decide⟩
  have hx := hvalue.gives { name := "x", type := .verbatim "int" } (.head _)
  have hprinted := hvalue.prints (fun p => if p.name = "x" then "3" else "4") (by decide)
  exact ⟨⟨_, rfl, hwritten⟩, List.cons_ne_nil _ _, hvisible, hnames, Plane.lawful_world, hx,
    hprinted, hequal, hhash, hother hdiffer⟩

def tally : Implementation where
  interface := "me.Tally"
  name := "me.builder.TallyImpl"
  params := [{ name := "total", type := .verbatim "int" },
    { name := "hashCode", type := .verbatim "int" }]

theorem tally_unanswered :
    let u := tally.unit {}
    let names := (u.imports (.ofOwner tally.name)).display
    (∃ text, tally.source {} = .ok text) ∧ tally.params ≠ [] ∧ u.Unobscured names ∧
      (u.methods.filter (Method.answers "hashCode" 0)).length = 2 ∧
      ∀ (V : Type) [DecidableEq V] (w : World V) (x : V),
        (u.read names).asked w x "hashCode" [] = none := by
  intro u names
  have hvisible : u.Unobscured names := SourceUnit.unobscured_of_clear (by decide +kernel)
  have hread : u.read names = tally.unit {} := hvisible
  have htwice : (tally.unit {}).methods.filter (Method.answers "hashCode" 0) =
      [accessor {} { name := "hashCode", type := .verbatim "int" }, tally.hashCodeMethod] := rfl
  refine ⟨⟨_, rfl⟩, List.cons_ne_nil _ _, hvisible, congrArg List.length htwice, ?_⟩
  intro V _ w x
  rw [hread]
  unfold SourceUnit.asked
  rw [List.length_nil, htwice]

end Implementation

end StagedBuilder
