import Mathlib.Data.List.Forall2
import StagedBuilder.Check
import StagedBuilder.FileTree
import StagedBuilder.Generate

namespace StagedBuilder

theorem synthesize_isOk_iff (s : SupportClasses) (plans : List Plan) :
    (∃ files, synthesize s plans = .ok files) ↔ ∀ p ∈ plans, ∃ files, p.files s = .ok files := by
  induction plans with
  | nil => simp [synthesize]
  | cons p ps ih =>
    cases hp : p.files s with
    | error e => simp [synthesize, hp, Except.mapError, bind, Except.bind]
    | ok files =>
      cases hs : synthesize s ps with
      | error e =>
        rw [hs] at ih
        simpa [synthesize, hp, hs, Except.mapError, bind, Except.bind] using ih
      | ok rest =>
        rw [hs] at ih
        simpa [synthesize, hp, hs, Except.mapError, bind, Except.bind, pure, Except.pure] using ih

theorem generate_dryRun (s : SupportClasses) (plans : List Plan) (base : String) (t : FileTree) :
    generate FileTree.access s plans base true t =
      ((synthesize s plans).map Generated.preview, t) := by
  unfold generate
  cases synthesize s plans <;> rfl

theorem generate_dryRun_isOk_iff (s : SupportClasses) (plans : List Plan) (base : String)
    (t : FileTree) :
    (∃ files, generate FileTree.access s plans base true t = (.ok (.preview files), t)) ↔
      ∀ p ∈ plans, ∃ files, p.files s = .ok files := by
  rw [← synthesize_isOk_iff, generate_dryRun]
  cases synthesize s plans with
  | error e =>
    constructor <;> rintro ⟨files, h⟩ <;> cases h
  | ok files => exact ⟨fun _ => ⟨files, rfl⟩, fun _ => ⟨files, rfl⟩⟩

theorem isValid_cons (t : CheckedType) (ts : List CheckedType) :
    isValid (t :: ts) = true ↔ (∃ p, t.result = .ok p) ∧ isValid ts = true := by
  cases h : t.result <;> simp [isValid, h, Except.isOk, Except.toBool]

theorem isValid_iff_no_error (ts : List CheckedType) :
    isValid ts = true ↔ ts.filterMap (·.error?) = [] := by
  induction ts with
  | nil => simp [isValid]
  | cons t ts ih =>
    rw [isValid_cons, ih]
    cases h : t.result <;> simp [CheckedType.error?, h]

/-- A type and its entry in the report: a line with what its plan says, or else an error. -/
def CheckedType.Reports (s : SupportClasses) (defaults : Defaults) (type : String × TypeDecl)
    (t : CheckedType) : Prop :=
  (∃ p, Plan.ofDecl defaults type.1 type.2 = .ok p ∧ (∃ files, p.files s = .ok files) ∧
      t.line? = some (.item s!"{type.1} ({p.kind.name}, {p.builder.construction.label})") ∧
      t.error? = none) ∨
    ∃ e : GenerationError, t.line? = none ∧
      t.error? = some (.error (type.1 ++ ": " ++ e.message))

namespace Manifest

def accept (defaults : Defaults) (claims : Claims) (name : String) (d : TypeDecl) :
    Claims × Except GenerationError Plan :=
  match Plan.ofDecl defaults name d with
  | .error e => (claims, .error e)
  | .ok plan =>
    match Claims.claim name claims plan.classNames with
    | (claims, some e) => (claims, .error e)
    | (claims, none) => (claims, .ok plan)

variable (s : SupportClasses) (defaults : Defaults) (claims : Claims)

theorem plansAfter_cons (name : String) (d : TypeDecl) (rest : List (String × TypeDecl)) :
    plansAfter defaults claims ((name, d) :: rest) =
      match accept defaults claims name d with
      | (_, .error e) => .error e
      | (claims, .ok plan) => (plansAfter defaults claims rest).map (plan :: ·) := by
  rw [plansAfter, accept]
  cases Plan.ofDecl defaults name d with
  | error e => rfl
  | ok plan =>
    simp only [bind, Except.bind]
    rcases Claims.claim name claims plan.classNames with ⟨after, _ | e⟩
    · cases plansAfter defaults after rest <;> rfl
    · rfl

theorem checkAfter_cons (name : String) (d : TypeDecl) (rest : List (String × TypeDecl)) :
    checkAfter s defaults claims ((name, d) :: rest) =
      ⟨name, (accept defaults claims name d).2.bind fun p => (p.files s).map fun _ => p⟩ ::
        checkAfter s defaults (accept defaults claims name d).1 rest := by
  rw [checkAfter, accept]
  cases Plan.ofDecl defaults name d with
  | error e => rfl
  | ok plan =>
    simp only
    rcases Claims.claim name claims plan.classNames with ⟨after, _ | e⟩ <;> rfl

theorem accept_ok {name : String} {d : TypeDecl} {plan : Plan}
    (h : (accept defaults claims name d).2 = .ok plan) :
    Plan.ofDecl defaults name d = .ok plan := by
  unfold accept at h
  cases hp : Plan.ofDecl defaults name d with
  | error e => simp [hp] at h
  | ok p =>
    rw [hp] at h
    rcases hc : Claims.claim name claims p.classNames with ⟨after, _ | e⟩ <;> simp_all

/-- The simulation: from the same claims, all is well in one pass if it is in the other. -/
theorem isValid_checkAfter_iff (types : List (String × TypeDecl)) :
    isValid (checkAfter s defaults claims types) = true ↔
      ∃ plans, plansAfter defaults claims types = .ok plans ∧
        ∀ p ∈ plans, ∃ files, p.files s = .ok files := by
  induction types generalizing claims with
  | nil => simp [checkAfter, plansAfter, isValid]
  | cons type rest ih =>
    obtain ⟨name, d⟩ := type
    rw [checkAfter_cons, isValid_cons, plansAfter_cons, ih]
    rcases accept defaults claims name d with ⟨after, e | plan⟩
    · simp [Except.bind]
    · cases hp : plan.files s <;> cases hr : plansAfter defaults after rest <;>
        simp [hp, hr, Except.bind, Except.map]

theorem checkAfter_of_first_error {types : List (String × TypeDecl)} {e : GenerationError}
    (h : plansAfter defaults claims types = .error e) :
    ∃ i name d, types[i]? = some (name, d) ∧
      (∃ plans, plansAfter defaults claims (types.take i) = .ok plans) ∧
      plansAfter defaults claims (types.take (i + 1)) = .error e ∧
      (checkAfter s defaults claims types)[i]? = some ⟨name, .error e⟩ := by
  induction types generalizing claims with
  | nil => simp [plansAfter] at h
  | cons type rest ih =>
    obtain ⟨name, d⟩ := type
    rw [plansAfter_cons] at h
    rcases ha : accept defaults claims name d with ⟨after, e' | plan⟩
    · obtain rfl : e' = e := by simpa [ha] using h
      refine ⟨0, name, d, rfl, ⟨[], rfl⟩, ?_, ?_⟩
      · simp [plansAfter_cons, ha]
      · simp [checkAfter_cons, ha, Except.bind]
    · have hrest : plansAfter defaults after rest = .error e := by
        cases hr : plansAfter defaults after rest <;> simp_all [Except.map]
      obtain ⟨i, name', d', hi, ⟨plans, hok⟩, herr, hcheck⟩ := ih after hrest
      refine ⟨i + 1, name', d', hi, ⟨plan :: plans, ?_⟩, ?_, ?_⟩
      · simp [plansAfter_cons, ha, hok, Except.map]
      · simp [plansAfter_cons, ha, herr, Except.map]
      · simpa [checkAfter_cons, ha] using hcheck

theorem checkAfter_reports (types : List (String × TypeDecl)) :
    List.Forall₂ (CheckedType.Reports s defaults) types (checkAfter s defaults claims types) := by
  induction types generalizing claims with
  | nil => exact .nil
  | cons type rest ih =>
    obtain ⟨name, d⟩ := type
    rw [checkAfter_cons]
    refine .cons ?_ (ih _)
    cases ha : (accept defaults claims name d).2 with
    | error e => exact .inr ⟨e, rfl, rfl⟩
    | ok plan =>
      cases hf : plan.files s with
      | error e => exact .inr ⟨e, by simp [Except.bind, hf, Except.map, CheckedType.line?],
          by simp [Except.bind, hf, Except.map, CheckedType.error?]⟩
      | ok files => exact .inl ⟨plan, accept_ok _ _ ha, ⟨files, hf⟩,
          by simp [Except.bind, hf, Except.map, CheckedType.line?],
          by simp [Except.bind, hf, Except.map, CheckedType.error?]⟩

/--
A manifest is valid if its types have plans and code can be generated for each of them, that is, if
a dry run answers with files. Every type is reported once, in order, and what keeps the manifest
from having plans is reported at the type at fault.
-/
theorem check_agrees_with_generate (m : Manifest) :
    (isValid (m.check s) = true ↔ (m.check s).filterMap (·.error?) = []) ∧
    (isValid (m.check s) = true ↔
      ∃ plans, m.plans = .ok plans ∧ ∀ p ∈ plans, ∃ files, p.files s = .ok files) ∧
    (∀ base t, isValid (m.check s) = true ↔
      ∃ plans files, m.plans = .ok plans ∧
        generate FileTree.access s plans base true t = (.ok (.preview files), t)) ∧
    List.Forall₂ (CheckedType.Reports s m.defaults) m.types (m.check s) ∧
    ∀ e, m.plans = .error e →
      ∃ i name d, m.types[i]? = some (name, d) ∧
        (∃ plans, { m with types := m.types.take i }.plans = .ok plans) ∧
        { m with types := m.types.take (i + 1) }.plans = .error e ∧
        ∃ t, (m.check s)[i]? = some t ∧ t.line? = none ∧
          t.error? = some (.error (name ++ ": " ++ e.message)) := by
  have hvalid := isValid_checkAfter_iff s m.defaults [] m.types
  refine ⟨isValid_iff_no_error _, hvalid, fun base t => ?_, checkAfter_reports .., ?_⟩
  · rw [check, hvalid]
    constructor
    · rintro ⟨plans, hp, hfiles⟩
      obtain ⟨files, h⟩ := (generate_dryRun_isOk_iff s plans base t).2 hfiles
      exact ⟨plans, files, hp, h⟩
    · rintro ⟨plans, files, hp, h⟩
      exact ⟨plans, hp, (generate_dryRun_isOk_iff s plans base t).1 ⟨files, h⟩⟩
  · intro e he
    obtain ⟨i, name, d, hi, hbefore, hat, hentry⟩ := checkAfter_of_first_error s _ _ he
    exact ⟨i, name, d, hi, hbefore, hat, _, hentry, rfl, rfl⟩

end Manifest

end StagedBuilder
