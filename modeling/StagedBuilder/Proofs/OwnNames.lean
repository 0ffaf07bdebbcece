import StagedBuilder.Implementation
import StagedBuilder.Proofs.ImportLaws
import StagedBuilder.Proofs.StageLaws

namespace StagedBuilder

open ClassName (simple)

namespace Imports

variable {i : Imports} {taken : List String}

structure Avoids (taken : List String) (i : Imports) : Prop where
  claimed : ∀ x ∈ taken, x ∈ i.claimed
  shown : ∀ e ∈ i.entries, e.2 = e.1 ∨ e.2 ∉ taken

namespace Avoids

theorem nameFor (h : i.Avoids taken) (name : String) :
    i.nameFor name = name ∨ i.nameFor name ∉ taken := by
  unfold Imports.nameFor
  split_ifs with hclaimed
  · exact .inl rfl
  · right
    intro htaken
    exact hclaimed (h.claimed _ htaken)

theorem apply (h : i.Avoids taken) (hi : Coherent i) (e : NameEvent) :
    (i.apply e).Avoids taken := by
  constructor
  · intro x hx
    exact (hi.claimed_apply e x).2 (.inl (h.claimed x hx))
  · cases entries_apply (i := i) e with
    | inl hsame =>
      rw [hsame]
      exact h.shown
    | inr hnew =>
      obtain ⟨name, -, -, -, hentries⟩ := hnew
      rw [hentries, List.forall_mem_cons]
      exact ⟨h.nameFor name, h.shown⟩

theorem applyAll (h : i.Avoids taken) (hi : Coherent i) (es : List NameEvent) :
    (i.applyAll es).Avoids taken := by
  induction es generalizing i with
  | nil => exact h
  | cons e es ih => exact ih (h.apply hi e) (hi.apply e)

theorem nameOf (h : i.Avoids taken) {q : String} (hq : i.nameOf q ≠ q) : i.nameOf q ∉ taken :=
  (h.shown _ (Coherent.mem_of_nameOf_ne hq)).resolve_left hq

theorem imported (h : i.Avoids taken) (hi : Coherent i) {q : String} (hq : q ∈ i.imported) :
    simple q ∉ taken := by
  have hshort : i.nameOf q ≠ q := ((mem_imported hi).1 hq).1
  rw [← hi.nameOf_eq_simple hshort]
  exact h.nameOf hshort

end Avoids

theorem entries_reserved (names : List String) :
    (i.applyAll (names.map .reserve)).entries = i.entries := by
  induction names generalizing i with
  | nil => rfl
  | cons name names ih => exact ih

end Imports

namespace Java.SourceUnit

variable {u : SourceUnit} {start : Imports}

/--
Before a class comes into use, exactly the names of the declared classes are claimed. However many
of the references have come into use, no import and no short name is one of them.
-/
structure OwnsNames (u : SourceUnit) (start : Imports) : Prop where
  unused : start.entries = []
  claimed : ∀ x, x ∈ start.claimed ↔ x ∈ u.declared
  imported : ∀ before later, u.uses = before ++ later →
    ∀ q ∈ (start.noteAll before).imported, simple q ∉ u.declared
  named : ∀ before later, u.uses = before ++ later →
    ∀ q, (start.noteAll before).nameOf q ≠ q → (start.noteAll before).nameOf q ∉ u.declared

theorem ownsNames_of_claimed (hstart : Imports.Coherent start) (hunused : start.entries = [])
    (hclaimed : ∀ x, x ∈ start.claimed ↔ x ∈ u.declared) : u.OwnsNames start := by
  have hfirst : start.Avoids u.declared := by
    constructor
    · intro x hx
      exact (hclaimed x).2 hx
    · simp [hunused]
  have hlater : ∀ references, (start.noteAll references).Avoids u.declared := by
    intro references
    rw [Imports.noteAll_eq]
    exact hfirst.applyAll hstart _
  have hcoherent : ∀ references, Imports.Coherent (start.noteAll references) := by
    intro references
    rw [Imports.noteAll_eq]
    exact hstart.applyAll _
  constructor
  · exact hunused
  · exact hclaimed
  · intro before later _ q hq
    exact (hlater before).imported (hcoherent before) hq
  · intro before later _ q hq
    exact (hlater before).nameOf hq

end Java.SourceUnit

namespace Builder

variable {s : SupportClasses} {b : Builder}

def nestedNames (b : Builder) : List String :=
  b.stageNames ++ if b.emitsCopy then [copyName] else []

theorem ownNames_eq :
    b.ownNames = (Imports.ofOwner b.name).applyAll (b.nestedNames.map .reserve) := by
  rw [Imports.applyAll, List.foldl_map]
  rfl

theorem declared_unit : (b.unit s).declared = b.simpleName :: b.nestedNames := by
  rw [Java.SourceUnit.declared, map_name_nestedClasses]
  rfl

theorem coherent_ownNames : Imports.Coherent b.ownNames := by
  rw [ownNames_eq]
  exact (Imports.Coherent.ofOwner b.name).applyAll _

theorem ownsNames_unit : (b.unit s).OwnsNames b.ownNames := by
  apply Java.SourceUnit.ownsNames_of_claimed coherent_ownNames
  · rw [ownNames_eq, Imports.entries_reserved]
    rfl
  · intro x
    rw [ownNames_eq, (Imports.Coherent.ofOwner b.name).claimed_applyAll, declared_unit,
      List.mem_cons]
    simp [Imports.ofOwner, Imports.reserve, NameEvent.simple, simpleName]

end Builder

namespace Implementation

variable {s : SupportClasses} {i : Implementation} {text : String}

theorem of_source_eq_ok (h : i.source s = .ok text) :
    Parameter.checkAll i.params = .ok () ∧ text = (i.unit s).text (.ofOwner i.name) := by
  unfold source at h
  cases hcheck : Parameter.checkAll i.params with
  | error e =>
    rw [hcheck] at h
    exact nomatch h
  | ok =>
    rw [hcheck] at h
    exact ⟨rfl, (Except.ok.inj h).symm⟩

theorem declared_unit : (i.unit s).declared = [i.simpleName] := by
  rw [Java.SourceUnit.declared]
  simp [Java.SourceUnit.nestedClasses, unit, List.filterMap_map]

theorem ownsNames_unit : (i.unit s).OwnsNames (.ofOwner i.name) := by
  apply Java.SourceUnit.ownsNames_of_claimed (Imports.Coherent.ofOwner i.name) rfl
  intro x
  rw [declared_unit]
  rfl

end Implementation

/--
In every file that is generated, whatever the target, the types of the parameters and the support
classes are called, no class of another file takes the name of a class that the file declares.
-/
theorem declared_names_are_own (s : SupportClasses) :
    (∀ (b : Builder) (text : String), b.source s = .ok text →
      text = (b.unit s).text b.ownNames ∧
      (b.unit s).declared =
        b.simpleName :: b.stageNames ++ (if b.emitsCopy then [Builder.copyName] else []) ∧
      (b.unit s).OwnsNames b.ownNames) ∧
    ∀ (i : Implementation) (text : String), i.source s = .ok text →
      text = (i.unit s).text (.ofOwner i.name) ∧
      (i.unit s).declared = [i.simpleName] ∧
      (i.unit s).OwnsNames (.ofOwner i.name) := by
  constructor
  · intro b text hsource
    exact ⟨(Builder.of_source_eq_ok hsource).2, Builder.declared_unit, Builder.ownsNames_unit⟩
  · intro i text hsource
    exact ⟨(Implementation.of_source_eq_ok hsource).2, Implementation.declared_unit,
      Implementation.ownsNames_unit⟩

namespace Builder

def locker : Builder where
  target := "me.Locker"
  name := "me.builder.LockerBuilder"
  params := [
    { name := "key", type := .parsed (.leaf "com.acme.CopyBuilder") },
    { name := "lock", type := .parsed (.leaf "com.acme.BuilderWithKey") }]
  construction := .direct

theorem locker_types_in_full :
    "com.acme.CopyBuilder" ∈ (locker.unit {}).uses ∧
      "com.acme.CopyBuilder" ∉ ((locker.unit {}).imports locker.ownNames).imported ∧
      ((locker.unit {}).imports locker.ownNames).nameOf "com.acme.CopyBuilder" =
        "com.acme.CopyBuilder" := by
  obtain ⟨-, hdeclared, hown⟩ := (declared_names_are_own {}).1 locker _ rfl
  have hcopy : simple "com.acme.CopyBuilder" ∈ (locker.unit {}).declared := by
    rw [hdeclared]
    decide +kernel
  have hall : (locker.unit {}).uses = (locker.unit {}).uses ++ [] := (List.append_nil _).symm
  refine ⟨by decide +kernel, ?_, ?_⟩
  · intro himported
    exact hown.imported _ _ hall _ himported hcopy
  · by_contra hshort
    have hcoherent : Imports.Coherent ((locker.unit {}).imports locker.ownNames) := by
      rw [Java.SourceUnit.imports, Imports.noteAll_eq]
      exact coherent_ownNames.applyAll _
    apply hown.named _ _ hall _ hshort
    exact hcoherent.nameOf_eq_simple hshort ▸ hcopy

end Builder

end StagedBuilder
