import StagedBuilder.Identifier
import StagedBuilder.NameTemplate
import StagedBuilder.Proofs.ObjectLaws
import StagedBuilder.Proofs.OwnNames

namespace StagedBuilder

namespace Text

theorem upper_ne_nil (c : Char) : upper c ≠ [] := by
  have hexpanding : ∀ e ∈ expandingCases, e.2 ≠ [] := by decide
  unfold upper
  split
  · rename_i cs hcs
    obtain ⟨before, later, hcases, -⟩ := List.lookup_eq_some_iff.1 hcs
    exact hexpanding (c.toNat, cs) (by rw [hcases]; simp)
  · split <;> exact List.cons_ne_nil _ _

def Merge (x y : String) : Prop :=
  ∃ c cs d ds, x.toList = c :: cs ∧ y.toList = d :: ds ∧ c ≠ d ∧ upper c ++ cs = upper d ++ ds

theorem upperFirst_eq_iff {x y : String} :
    upperFirst x.toList = upperFirst y.toList ↔ x = y ∨ Merge x y := by
  constructor
  · intro h
    cases hx : x.toList with
    | nil =>
      cases hy : y.toList with
      | nil => exact .inl (String.toList_injective (hx.trans hy.symm))
      | cons d ds => simp [hx, hy, upperFirst, upper_ne_nil] at h
    | cons c cs =>
      cases hy : y.toList with
      | nil => simp [hx, hy, upperFirst, upper_ne_nil] at h
      | cons d ds =>
        rw [hx, hy, upperFirst, upperFirst] at h
        by_cases hcd : c = d
        · rw [hcd, List.append_right_inj] at h
          exact .inl (String.toList_injective (by rw [hx, hy, hcd, h]))
        · exact .inr ⟨c, cs, d, ds, hx, hy, hcd, h⟩
  · rintro (rfl | ⟨c, cs, d, ds, hx, hy, -, h⟩)
    · rfl
    · rw [hx, hy, upperFirst, upperFirst, h]

def initials : List Char := "abcdefghijklmnopqrstuvwxyz_$".toList

theorem length_upper_of_initial {c : Char} (h : c ∈ initials) : (upper c).length = 1 := by
  have hlengths : initials.map (fun c => (upper c).length) = List.replicate 28 1 := by
    decide +kernel
  exact List.eq_of_mem_replicate (hlengths ▸ List.mem_map_of_mem h)

theorem nodup_upper_initials : (initials.map upper).Nodup := by decide +kernel

def hasInitial (x : String) : Bool := x.toList.head?.all initials.contains

theorem not_merge_of_initials {x y : String} (hx : hasInitial x = true)
    (hy : hasInitial y = true) : ¬ Merge x y := by
  rintro ⟨c, cs, d, ds, hxc, hyd, hne, h⟩
  have hc : c ∈ initials := by simpa [hasInitial, hxc] using hx
  have hd : d ∈ initials := by simpa [hasInitial, hyd] using hy
  have hlength : (upper c).length = (upper d).length := by
    rw [length_upper_of_initial hc, length_upper_of_initial hd]
  have hupper : upper c = upper d := (List.append_inj h hlength).1
  exact hne (List.inj_on_of_nodup_map nodup_upper_initials hc hd hupper)

end Text

namespace Builder

open Text

variable {s : SupportClasses} {b : Builder}

def staged (b : Builder) : List Parameter :=
  if b.optional.isEmpty then b.mandatory.dropLast else b.mandatory

theorem stageNames_eq_map : b.stageNames = b.staged.map fun p => stageName p.name := stageNames_eq

theorem staged_sublist : b.staged.Sublist b.params := by
  unfold staged
  split_ifs
  · exact (List.dropLast_sublist _).trans List.filter_sublist
  · exact List.filter_sublist

theorem stageName_eq_iff {x y : String} : stageName x = stageName y ↔ x = y ∨ Merge x y := by
  rw [stageName, stageName, String.append_right_inj, ← upperFirst_eq_iff, String.ofList_inj]

/-- No class of the builder is named like another one. -/
structure NamesApart (b : Builder) : Prop where
  stages : b.staged.Pairwise fun p q => ¬ Merge p.name q.name
  outer : ∀ p ∈ b.staged, b.simpleName ≠ stageName p.name
  copies : b.emitsCopy = true → b.simpleName ≠ copyName

theorem nodup_stageNames_iff (hb : b.WellNamed) :
    b.stageNames.Nodup ↔ b.staged.Pairwise fun p q => ¬ Merge p.name q.name := by
  have hnames : b.staged.Pairwise fun p q => p.name ≠ q.name :=
    List.pairwise_map.1 (hb.distinct.sublist (staged_sublist.map _))
  rw [stageNames_eq_map, List.Nodup, List.pairwise_map]
  simp only [ne_eq, stageName_eq_iff, not_or, List.pairwise_and_iff]
  exact and_iff_right hnames

theorem nodup_nestedNames_iff (hb : b.WellNamed) :
    b.nestedNames.Nodup ↔ b.staged.Pairwise fun p q => ¬ Merge p.name q.name := by
  have hcopy : (if b.emitsCopy then [copyName] else []).Nodup := by
    split_ifs
    · exact List.nodup_singleton _
    · exact List.nodup_nil
  rw [nestedNames, List.nodup_append', ← nodup_stageNames_iff hb]
  refine and_iff_left ⟨hcopy, ?_⟩
  intro x hstage hx
  rw [List.mem_ite_nil_right, List.mem_singleton] at hx
  exact copyName_not_mem_stageNames (hx.2 ▸ hstage)

theorem nodup_declared_iff (hb : b.WellNamed) : (b.unit s).declared.Nodup ↔ b.NamesApart := by
  rw [declared_unit, List.nodup_cons, nodup_nestedNames_iff hb, nestedNames, List.mem_append,
    stageNames_eq_map, List.mem_map, List.mem_ite_nil_right, List.mem_singleton]
  constructor
  · rintro ⟨hown, hstages⟩
    refine ⟨hstages, ?_, ?_⟩
    · intro p hp hname
      exact hown (.inl ⟨p, hp, hname.symm⟩)
    · intro hcopy hname
      exact hown (.inr ⟨hcopy, hname⟩)
  · intro h
    refine ⟨?_, h.stages⟩
    rintro (⟨p, hp, hname⟩ | ⟨hcopy, hname⟩)
    · exact h.outer p hp hname.symm
    · exact h.copies hcopy hname

theorem namesApart_of_initials (hparams : ∀ p ∈ b.staged, hasInitial p.name = true)
    (houter : ¬ "BuilderWith".toList <+: b.simpleName.toList) (hcopy : b.simpleName ≠ copyName) :
    b.NamesApart := by
  refine ⟨?_, ?_, fun _ => hcopy⟩
  · apply List.pairwise_of_forall_mem_list
    intro p hp q hq
    exact not_merge_of_initials (hparams p hp) (hparams q hq)
  · intro p hp hname
    apply houter
    rw [hname, stageName, String.toList_append]
    exact List.prefix_append _ _

/--
A file that is generated declares each of its classes once exactly if the names of the builder are
apart: no two names of parameters with a stage merge, and the builder is called neither like a stage
nor, where there are copies, like their class. No stage is called like the class for copies, and
names that begin as is usual are apart.
-/
theorem classes_apart_iff {text : String} (h : b.source s = .ok text) :
    text = (b.unit s).text b.ownNames ∧
    (b.unit s).declared =
      b.simpleName :: b.stageNames ++ (if b.emitsCopy then [copyName] else []) ∧
    copyName ∉ b.stageNames ∧
    ((b.unit s).declared.Nodup ↔ b.NamesApart) ∧
    ((∀ p ∈ b.params, hasInitial p.name = true) →
      ¬ "BuilderWith".toList <+: b.simpleName.toList → b.simpleName ≠ copyName →
        (b.unit s).declared.Nodup) := by
  have hnames : (b.unit s).declared.Nodup ↔ b.NamesApart :=
    nodup_declared_iff (wellNamed_of_source h)
  refine ⟨(of_source_eq_ok h).2, declared_unit, copyName_not_mem_stageNames, hnames, ?_⟩
  intro hparams houter hcopy
  refine hnames.2 (namesApart_of_initials ?_ houter hcopy)
  intro p hp
  exact hparams p (staged_sublist.mem hp)

def street : Builder where
  target := "me.Street"
  name := "me.builder.StreetBuilder"
  params := [
    { name := "name", type := .parsed (.leaf "String") },
    { name := "Name", type := .parsed (.leaf "String"), acceptsNull := true },
    { name := "town", type := .parsed (.leaf "String") }]
  construction := .direct

theorem street_classes_apart :
    street.source {} = .ok ((street.unit {}).text street.ownNames) ∧
      Merge "name" "Name" ∧
      (street.unit {}).declared =
        ["StreetBuilder", "BuilderWithName", "BuilderWithTown", "CopyBuilder"] ∧
      (street.unit {}).declared.Nodup := by
  have hsource : street.source {} = .ok ((street.unit {}).text street.ownNames) := rfl
  obtain ⟨-, hdeclared, -, hapart, -⟩ := classes_apart_iff hsource
  have hstaged : street.staged.map (·.name) = ["name", "town"] := by decide +kernel
  have hdistinct : ¬ Merge "name" "town" := not_merge_of_initials (by decide) (by decide)
  have hmerge : Merge "name" "Name" :=
    ⟨'n', "ame".toList, 'N', "ame".toList, rfl, rfl, by decide, by decide +kernel⟩
  refine ⟨hsource, hmerge, hdeclared.trans (by decide +kernel), hapart.2 ⟨?_, ?_, ?_⟩⟩
  · have hpairs : (street.staged.map (·.name)).Pairwise fun x y => ¬ Merge x y := by
      rw [hstaged]
      simpa using hdistinct
    exact List.pairwise_map.1 hpairs
  · decide +kernel
  · decide +kernel

def ring : Builder where
  target := "me.Ring"
  name := "me.builder.RingBuilder"
  params := [
    { name := "r", type := .parsed (.leaf "int") },
    { name := "R", type := .parsed (.leaf "int") },
    { name := "colour", type := .parsed (.leaf "String") }]
  construction := .direct
  copy := false

def photocopy : Builder where
  target := "me.Copy"
  name := NameTemplate.builder.resolve "me" "Copy"
  params := [{ name := "text", type := .parsed (.leaf "String") }]
  construction := .direct

theorem ring_stages_not_apart :
    (¬ ∀ (s : SupportClasses) (b : Builder) (text : String),
      (∀ p ∈ b.params, isIdentifier p.name = true) → b.source s = .ok text →
        (b.unit s).declared.Nodup) ∧
    ring.source {} = .ok ((ring.unit {}).text ring.ownNames) ∧
    (ring.unit {}).declared = ["RingBuilder", "BuilderWithR", "BuilderWithR"] ∧
    photocopy.source {} = .ok ((photocopy.unit {}).text photocopy.ownNames) ∧
    (photocopy.unit {}).declared = ["CopyBuilder", "CopyBuilder"] := by
  have hring : (ring.unit {}).declared = ["RingBuilder", "BuilderWithR", "BuilderWithR"] := by
    decide +kernel
  refine ⟨?_, rfl, hring, rfl, by decide +kernel⟩
  intro h
  have hapart := h {} ring _ (by decide +kernel) rfl
  rw [hring] at hapart
  exact absurd hapart (by decide)

end Builder

end StagedBuilder
