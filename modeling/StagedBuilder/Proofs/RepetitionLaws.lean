import Mathlib.Data.List.Duplicate
import StagedBuilder.Proofs.ValidationLaws

namespace StagedBuilder

open Text

namespace Text

variable {pat s before after : List Char}

theorem length_le_of_cut? (h : cut? pat s = some (before, after)) {front : List Char}
    (hfront : front ++ pat <+: s) : before.length ≤ front.length := by
  induction s generalizing before after front with
  | nil =>
    rw [cut?] at h
    split_ifs at h
    obtain ⟨rfl, -⟩ := Prod.mk.inj (Option.some.inj h)
    exact Nat.zero_le _
  | cons c s ih =>
    rw [cut?] at h
    split_ifs at h with hhere
    · obtain ⟨rfl, -⟩ := Prod.mk.inj (Option.some.inj h)
      exact Nat.zero_le _
    · obtain ⟨⟨rest, _⟩, hcut, heq⟩ := Option.map_eq_some_iff.1 h
      obtain ⟨rfl, -⟩ := Prod.mk.inj heq
      cases front with
      | nil => exact absurd (List.isPrefixOf_iff_prefix.2 hfront) hhere
      | cons d front => exact Nat.succ_le_succ (ih hcut (List.cons_prefix_cons.1 hfront).2)

theorem eq_of_byteLength {u v : List Char} (hu : u <+: s) (hv : v <+: s)
    (h : byteLength u = byteLength v) : u = v := by
  obtain ⟨u', rfl⟩ := hu
  obtain ⟨v', hv'⟩ := hv
  have hcut := cutAt?_append u u'
  rw [h, ← hv', cutAt?_append] at hcut
  exact (Prod.mk.inj (Option.some.inj hcut)).1.symm

end Text

def declaration (name : String) : List Char := "name = \"".toList ++ name.toList ++ "\"".toList

/-- A parameter of the name is declared behind `front`. -/
def DeclaredBehind (text name : String) (front : List Char) : Prop :=
  front ++ declaration name <+: text.toList

instance (text name : String) (front : List Char) : Decidable (DeclaredBehind text name front) :=
  inferInstanceAs (Decidable (_ <+: _))

def spanBehind (front : List Char) (name : String) : Span :=
  ⟨byteLength front + byteLength "name = \"".toList, byteLength name.toList⟩

section Locate

variable {text name : String} {front : List Char}

theorem eq_of_spanBehind {other : List Char} (h : DeclaredBehind text name front)
    (h' : DeclaredBehind text name other) (hspan : spanBehind front name = spanBehind other name) :
    front = other := by
  obtain ⟨hoffset, -⟩ := Span.mk.inj hspan
  exact eq_of_byteLength ((List.prefix_append front _).trans h)
    ((List.prefix_append other _).trans h') (Nat.add_right_cancel hoffset)

/-- Where a parameter is declared under the name, the name is found in its first declaration. -/
theorem exists_first_declaration (h : declaration name <:+: text.toList) :
    ∃ front, DeclaredBehind text name front ∧
      locate text.toList name.toList = some (spanBehind front name) ∧
      ∀ other, DeclaredBehind text name other → front <+: other := by
  obtain ⟨⟨before, after⟩, hcut⟩ : ∃ found, cut? (declaration name) text.toList = some found := by
    rw [← Option.ne_none_iff_exists', ne_eq, cut?_eq_none_iff, not_not]
    exact h
  have hdeclared : DeclaredBehind text name before := ⟨after, (eq_of_cut? hcut).symm⟩
  refine ⟨before, hdeclared, ?_, ?_⟩
  · have hfirst : enclosures.head? = some ("name = \"".toList, "\"".toList) := rfl
    obtain ⟨rest, hrest⟩ := List.head?_eq_some_iff.1 hfirst
    have hcut' : cut? ("name = \"".toList ++ name.toList ++ "\"".toList) text.toList =
        some (before, after) := hcut
    rw [locate, hrest, List.findSome?_cons]
    dsimp only
    rw [hcut']
    rfl
  · intro other hother
    have hbefore := (List.prefix_append before _).trans hdeclared
    exact List.prefix_of_prefix_length_le hbefore ((List.prefix_append other _).trans hother)
      (length_le_of_cut? hcut hother)

end Locate

def Rule.IsOther (r : Rule) : Prop := ∀ name type, r.fault.violation ≠ .duplicateParameter name type

section Rules

variable {path : List String} {kind name type : String} {r : Rule} {d : TypeDecl}

theorem isOther_name : ∀ r ∈ nameRules path kind name, r.IsOther := by
  simp [nameRules, identifierRules, Rule.IsOther]

theorem isOther_qualifiedName : ∀ r ∈ qualifiedNameRules path kind name, r.IsOther := by
  simp only [qualifiedNameRules, identifierRules, List.forall_mem_cons, List.forall_mem_flatMap]
  simp [Rule.IsOther]

theorem isOther_template : ∀ r ∈ templateRules path kind name, r.IsOther := by
  simp [templateRules, Rule.IsOther]

theorem isOther_package : ∀ r ∈ packageRules path type name, r.IsOther := by
  unfold packageRules
  split_ifs
  · exact List.forall_mem_nil _
  · refine List.forall_mem_append.2 ⟨isOther_qualifiedName, ?_⟩
    simp [Rule.IsOther]

theorem isOther_parameter {p : ParameterDecl} : ∀ r ∈ parameterRules path type p, r.IsOther := by
  refine List.forall_mem_append.2 ⟨List.forall_mem_append.2 ⟨isOther_name, ?_⟩, ?_⟩
  · intro r hr
    obtain ⟨accessor, -, hr⟩ := List.mem_flatMap.1 hr
    exact isOther_name r hr
  · simp [Rule.IsOther]

theorem isOther_kind : ∀ r ∈ d.kindRules name, r.IsOther := by
  simp [TypeDecl.kindRules, Rule.IsOther]

theorem isOther_check {check : String} : ∀ r ∈ d.checkRules path name check, r.IsOther :=
  List.forall_mem_cons.2 ⟨by simp [Rule.IsOther], isOther_name⟩

theorem exists_parameters_of_mem {m : Manifest} (hr : r ∈ m.rules) (h : ¬ r.IsOther) :
    ∃ type d, (type, d) ∈ m.types ∧ ∃ ps ∈ d.params :: d.constructors.map (·.params),
      r ∈ parametersRules [type] type [] ps := by
  simp only [Manifest.rules, List.mem_append, List.mem_flatMap, Prod.exists] at hr
  rcases hr with (hr | hr) | ⟨type, d, hd, hr | hr⟩
  · exact absurd (isOther_template r hr) h
  · exact absurd (isOther_template r hr) h
  · exact absurd (isOther_qualifiedName r hr) h
  · refine ⟨type, d, hd, ?_⟩
    simp only [TypeDecl.rules, List.mem_append, List.mem_flatMap] at hr
    rcases hr with
      (((((⟨_, -, hr⟩ | ⟨_, -, hr⟩) | ⟨_, -, hr⟩) | hr) | ⟨_, -, hr⟩) | hr) | ⟨c, hc, hr⟩
    · exact absurd (isOther_package r hr) h
    · exact absurd (isOther_template r hr) h
    · exact absurd (isOther_template r hr) h
    · exact absurd (isOther_kind r hr) h
    · exact absurd (isOther_check r hr) h
    · exact ⟨d.params, List.mem_cons_self, hr⟩
    · exact ⟨c.params, List.mem_cons_of_mem _ (List.mem_map_of_mem hc), hr⟩

theorem repeated_of_violated {type' : String} {seen : List String} {ps : List ParameterDecl}
    (hr : r ∈ parametersRules path type seen ps)
    (hfault : r.fault.violation = .duplicateParameter name type') (hviolated : ¬ r.Holds) :
    type' = type ∧
      (name ∈ seen ∧ name ∈ ps.map (·.name) ∨ List.Duplicate name (ps.map (·.name))) := by
  induction ps generalizing seen with
  | nil => cases hr
  | cons p ps ih =>
    rw [parametersRules, List.mem_append, List.mem_cons] at hr
    rw [List.map_cons]
    rcases hr with hr | rfl | hr
    · exact absurd hfault (isOther_parameter r hr name type')
    · obtain ⟨rfl, rfl⟩ := Violation.duplicateParameter.inj hfault
      exact ⟨rfl, .inl ⟨not_not.1 hviolated, List.mem_cons_self⟩⟩
    · obtain ⟨htype, ⟨hseen, hname⟩ | hname⟩ := ih hr
      · rcases List.mem_cons.1 hseen with rfl | hseen
        · exact ⟨htype, .inr hname.duplicate_cons_self⟩
        · exact ⟨htype, .inl ⟨hseen, List.mem_cons_of_mem _ hname⟩⟩
      · exact ⟨htype, .inr (hname.duplicate_cons _)⟩

theorem Manifest.exists_duplicate {m : Manifest} {fault : Fault} (h : m.fault? = some fault)
    (hfault : fault.violation = .duplicateParameter name type) :
    ∃ d, (type, d) ∈ m.types ∧ ∃ ps ∈ d.params :: d.constructors.map (·.params),
      List.Duplicate name (ps.map (·.name)) := by
  obtain ⟨before, r, after, hrules, -, hviolated, rfl⟩ := m.judges_fault.some_iff.1 h
  have hr : r ∈ m.rules := hrules ▸ List.mem_append_right before List.mem_cons_self
  obtain ⟨type', d, hd, ps, hps, hr⟩ := exists_parameters_of_mem hr fun h => h name type hfault
  obtain ⟨rfl, ⟨hseen, -⟩ | hduplicate⟩ := repeated_of_violated hr hfault hviolated
  · cases hseen
  · exact ⟨d, hd, ps, hps, hduplicate⟩

theorem sought_of_repetition {m : Manifest} {fault : Fault} (h : m.fault? = some fault)
    (hfault : fault.violation = .duplicateParameter name type) : fault.sought = some name := by
  obtain ⟨x, -, habout⟩ := about_of_fault? h
  cases habout with
  | repeated =>
    obtain ⟨rfl, -⟩ := Violation.duplicateParameter.inj hfault
    rfl
  | _ => cases hfault

end Rules

theorem Manifest.parseBy_eq_invalid {read : Toml.Reading} {file file' text : String}
    {fault : Fault} {span : Option Span}
    (h : parseBy read file text = .error (.invalid file' fault span)) :
    ∃ m, ofTextBy read text = .ok m ∧ m.fault? = some fault ∧ span = fault.span? text := by
  unfold parseBy at h
  cases hm : ofTextBy read text with
  | error e =>
    rw [hm] at h
    cases h
  | ok m =>
    rw [hm] at h
    cases hvalid : m.validate file text with
    | ok =>
      simp only [Except.mapError, bind, Except.bind, hvalid] at h
      cases h
    | error e =>
      simp only [Except.mapError, bind, Except.bind, hvalid] at h
      obtain ⟨fault', hfault, he⟩ := validate_eq_error_iff.1 hvalid
      rw [he] at h
      obtain ⟨-, rfl, rfl⟩ := ManifestError.invalid.inj (Except.error.inj h)
      exact ⟨m, rfl, hfault, rfl⟩

/--
Whatever reads it, a text is refused for a repeated parameter only if a type has it twice in one
list. What is shown is the name in the first place of the text where a parameter is declared under
it, whichever type that is in, and never in a place behind another one.
-/
theorem repetition_shown_first {read : Toml.Reading} {file text name type : String} {fault : Fault}
    {span : Option Span} (h : Manifest.parseBy read file text = .error (.invalid file fault span))
    (hfault : fault.violation = .duplicateParameter name type)
    (hdeclared : declaration name <:+: text.toList) :
    (∃ m d, Manifest.ofTextBy read text = .ok m ∧ (type, d) ∈ m.types ∧
      ∃ ps ∈ d.params :: d.constructors.map (·.params), List.Duplicate name (ps.map (·.name))) ∧
    ∃ front, DeclaredBehind text name front ∧ span = some (spanBehind front name) ∧
      ∀ other, DeclaredBehind text name other →
        front <+: other ∧ (span = some (spanBehind other name) → other = front) := by
  obtain ⟨m, hm, hjudged, rfl⟩ := Manifest.parseBy_eq_invalid h
  obtain ⟨d, hd, hduplicate⟩ := m.exists_duplicate hjudged hfault
  obtain ⟨front, hfront, hlocate, hfirst⟩ := exists_first_declaration hdeclared
  have hspan : fault.span? text = some (spanBehind front name) := by
    rw [Fault.span?, sought_of_repetition hjudged hfault, Option.bind_some, hlocate]
  refine ⟨⟨m, d, hm, hd, hduplicate⟩, front, hfront, hspan, fun other hother => ?_⟩
  refine ⟨hfirst other hother, fun heq => ?_⟩
  exact eq_of_spanBehind hother hfront (Option.some.inj (heq.symm.trans hspan))

def pairText : String :=
  "[types.\"me.Pair\"]\nkind = \"record\"\nparams = [\n" ++
    "  \x7b name = \"left\", type = \"int\" \x7d,\n" ++
    "  \x7b name = \"left\", type = \"long\" \x7d,\n]\n"

def pairFront : List Char := pairText.toList.take 84

theorem parse_pairText :
    Manifest.parse "pair.toml" pairText = .error (.invalid "pair.toml"
      ⟨.duplicateParameter "left" "me.Pair", some "left"⟩ (some ⟨57, 4⟩)) := by
  decide +kernel

theorem declaredBehind_pairFront : DeclaredBehind pairText "left" pairFront := by
  decide +kernel

theorem declaration_infix_pairText : declaration "left" <:+: pairText.toList := by
  obtain ⟨after, hafter⟩ := declaredBehind_pairFront
  exact ⟨pairFront, after, hafter⟩

theorem pair_shown_before :
    Manifest.parse "pair.toml" pairText = .error (.invalid "pair.toml"
      ⟨.duplicateParameter "left" "me.Pair", some "left"⟩ (some ⟨57, 4⟩)) ∧
    declaration "left" <:+: pairText.toList ∧
    ∃ front, DeclaredBehind pairText "left" front ∧ spanBehind front "left" = ⟨57, 4⟩ ∧
      front <+: pairFront := by
  obtain ⟨-, front, hfront, hspan, hothers⟩ :=
    repetition_shown_first parse_pairText rfl declaration_infix_pairText
  exact ⟨parse_pairText, declaration_infix_pairText, front, hfront, (Option.some.inj hspan).symm,
    (hothers pairFront declaredBehind_pairFront).1⟩

theorem pair_repetition_not_shown :
    Manifest.parse "pair.toml" pairText = .error (.invalid "pair.toml"
      ⟨.duplicateParameter "left" "me.Pair", some "left"⟩ (some ⟨57, 4⟩)) ∧
    DeclaredBehind pairText "left" pairFront ∧
    ¬∃ front other, DeclaredBehind pairText "left" front ∧ spanBehind front "left" = ⟨57, 4⟩ ∧
      DeclaredBehind pairText "left" other ∧ other.length < front.length := by
  refine ⟨parse_pairText, declaredBehind_pairFront, ?_⟩
  rintro ⟨front, other, hfront, hspan, hother, hlength⟩
  obtain ⟨first, hdeclared, hlocate, hfirst⟩ := exists_first_declaration declaration_infix_pairText
  have hshown : locate pairText.toList "left".toList = some ⟨57, 4⟩ := by
    decide +kernel
  have hsame : spanBehind front "left" = spanBehind first "left" :=
    hspan.trans (Option.some.inj (hshown.symm.trans hlocate))
  obtain rfl := eq_of_spanBehind hfront hdeclared hsame
  exact Nat.not_lt.2 (hfirst other hother).length_le hlength

end StagedBuilder
