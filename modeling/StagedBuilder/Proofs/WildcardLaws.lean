import StagedBuilder.Identifier
import StagedBuilder.Proofs.CaptureLaws
import StagedBuilder.Proofs.ErasureLaws
import StagedBuilder.Proofs.PathLaws

namespace StagedBuilder

namespace Text

def BeginsWild (s : List Char) : Prop := (trimStart s).head? = some '?'

instance (s : List Char) : Decidable (BeginsWild s) := inferInstanceAs (Decidable (_ = _))

theorem exists_of_beginsWild {s : List Char} (h : BeginsWild s) :
    ∃ blank rest, Blank blank ∧ s = blank ++ '?' :: rest := by
  obtain ⟨blank, hblank, hs⟩ := exists_trimStart s
  obtain ⟨rest, hrest⟩ := List.head?_eq_some_iff.1 h
  exact ⟨blank, rest, hblank, by rw [← hrest, ← hs]⟩

theorem beginsWild_append_of_blank {l : List Char} (h : Blank l) (s : List Char) :
    BeginsWild (l ++ s) ↔ BeginsWild s := by
  rw [BeginsWild, BeginsWild, trimStart_append_of_blank h]

theorem beginsWild_cons (s : List Char) : BeginsWild ('?' :: s) := rfl

theorem BeginsWild.append {s : List Char} (h : BeginsWild s) (t : List Char) :
    BeginsWild (s ++ t) := by
  obtain ⟨blank, rest, hblank, rfl⟩ := exists_of_beginsWild h
  rw [List.append_assoc, beginsWild_append_of_blank hblank]
  exact beginsWild_cons _

theorem not_beginsWild_of_blank {s : List Char} (h : Blank s) : ¬ BeginsWild s := by
  intro hwild
  obtain ⟨blank, rest, -, rfl⟩ := exists_of_beginsWild hwild
  exact h.not_mem (by decide) (List.mem_append_right _ List.mem_cons_self)

theorem beginsWild_append_iff {t : List Char} (ht : ¬ BeginsWild t) (s : List Char) :
    BeginsWild (s ++ t) ↔ BeginsWild s := by
  refine ⟨fun h => ?_, fun h => h.append t⟩
  by_cases hs : Blank s
  · exact absurd ((beginsWild_append_of_blank hs t).1 h) ht
  · have hvisible : trimStart s ≠ [] := mt List.dropWhile_eq_nil_iff.1 hs
    rwa [BeginsWild, trimStart_append_of_not_blank hs,
      List.head?_append_of_ne_nil _ hvisible] at h

theorem beginsWild_trim_iff (s : List Char) : BeginsWild (trim s) ↔ BeginsWild s := by
  obtain ⟨l, r, hl, hr, hs⟩ := exists_trim s
  conv_rhs => rw [hs, List.append_assoc, beginsWild_append_of_blank hl,
    beginsWild_append_iff (not_beginsWild_of_blank hr)]

theorem exists_piece_of_beginsWild {s : List Char} (h : BeginsWild s) :
    ∃ x ∈ s.splitOn '.', BeginsWild x := by
  obtain ⟨blank, rest, hblank, rfl⟩ := exists_of_beginsWild h
  have hfront : '.' ∉ blank ++ ['?'] := by
    rw [List.mem_append, not_or]
    exact ⟨hblank.not_mem (by decide), by decide⟩
  have hsplit (front : List Char) (hfront : '.' ∉ front) :
      ∃ w ws, (front ++ rest).splitOn '.' = (front ++ w) :: ws := by
    induction front with
    | nil =>
      obtain ⟨w, ws, hw⟩ := List.exists_cons_of_ne_nil (List.splitOn_ne_nil '.' rest)
      exact ⟨w, ws, hw⟩
    | cons c front ih =>
      rw [List.mem_cons, not_or] at hfront
      obtain ⟨w, ws, hw⟩ := ih hfront.2
      refine ⟨w, ws, ?_⟩
      have hc : (c == '.') = false := beq_false_of_ne (Ne.symm hfront.1)
      rw [List.cons_append, List.splitOn_cons_eq_if_modifyHead, hc, hw]
      rfl
  obtain ⟨w, ws, hw⟩ := hsplit _ hfront
  refine ⟨blank ++ ['?'] ++ w, ?_, ?_⟩
  · rw [← List.singleton_append, ← List.append_assoc, hw]
    exact List.mem_cons_self
  · rw [List.append_assoc, beginsWild_append_of_blank hblank]
    exact beginsWild_cons _

end Text

open Text

namespace Reference

/-- A wildcard in one of its forms. -/
def IsWildcard (reference : String) : Prop :=
  (ofText reference).bound ≠ "" ∨ (ofText reference).className = "?"

def NamesClass (reference : String) : Prop :=
  ∀ x ∈ ClassName.segments (.ofList (trim reference.toList)), ¬ BeginsWild x.toList

instance (reference : String) : Decidable (IsWildcard reference) :=
  inferInstanceAs (Decidable (_ ∨ _))

instance (reference : String) : Decidable (NamesClass reference) := List.decidableBAll _ _

section Forms

variable {reference : String}

theorem ofText_trim (reference : String) :
    ofText (.ofList (trim reference.toList)) = ofText reference := by
  rw [ofText, ofText, String.toList_ofList, trim_trim]

theorem beginsWild_of_bound {r : Reference} (h : r.bound ∈ wildcardBounds) (s : List Char) :
    BeginsWild (r.bound.toList ++ s) := by
  have hbounds : ∀ b ∈ wildcardBounds, BeginsWild b.toList := by decide
  exact (hbounds _ h).append s

theorem bound_of_ne (h : (ofText reference).bound ≠ "") :
    (ofText reference).bound ∈ wildcardBounds ∧
      (ofText reference).bound.toList <+: trim reference.toList := by
  have hbound : (ofText reference).bound = .ofList (splitBound (trim reference.toList)).1 := rfl
  rw [hbound, splitBound] at h ⊢
  split at h
  · rename_i b hb
    rw [String.ofList_toList]
    exact ⟨List.mem_of_find?_eq_some hb, by simpa using List.find?_some hb⟩
  · exact absurd rfl h

theorem mem_takeDimensions {s : List Char} {c : Char} (hc : c ∈ (takeDimensions s).1) :
    c ∈ ['[', ']', '.'] := by
  fun_induction takeDimensions s with
  | case1 cs d rest heq ih =>
    rw [heq] at ih
    rw [List.mem_cons, List.mem_cons] at hc
    rcases hc with rfl | rfl | hc
    · decide
    · decide
    · exact ih hc
  | case2 cs d rest heq ih =>
    rw [heq] at ih
    simp only [List.mem_cons] at hc
    rcases hc with rfl | rfl | rfl | hc
    · decide
    · decide
    · decide
    · exact ih hc
  | case3 => cases hc

theorem not_beginsWild_dimensions : ¬ BeginsWild (ofText reference).dimensions.toList := by
  intro h
  obtain ⟨blank, rest, -, hs⟩ := exists_of_beginsWild h
  have hdimensions : (ofText reference).dimensions =
      .ofList (takeDimensions (splitBound (trim reference.toList)).2.reverse).1.reverse := rfl
  rw [hdimensions, String.toList_ofList] at hs
  have hmem : '?' ∈ (takeDimensions (splitBound (trim reference.toList)).2.reverse).1 := by
    rw [← List.mem_reverse, hs]
    exact List.mem_append_right _ List.mem_cons_self
  exact absurd (mem_takeDimensions hmem) (by decide)

theorem trim_of_no_bound (h : (ofText reference).bound = "") :
    trim reference.toList =
      (ofText reference).className.toList ++ (ofText reference).dimensions.toList := by
  rw [← ofText_trim reference] at h ⊢
  have htext := className_append_dimensions (by rw [String.toList_ofList, trim_trim]) h
  rw [← String.toList_append, ← htext, String.toList_ofList]

theorem not_namesClass_of_part {front back : List Char} (hback : BeginsWild back)
    (hfront : front = [] ∨ ∃ package, front = package ++ ['.'])
    (htext : trim reference.toList = front ++ back) : ¬ NamesClass reference := by
  intro h
  obtain ⟨x, hx, hwild⟩ := exists_piece_of_beginsWild hback
  apply h (.ofList x)
  · rw [ClassName.segments_eq, String.toList_ofList, htext]
    apply List.mem_map_of_mem
    rcases hfront with rfl | ⟨package, rfl⟩
    · exact hx
    · rw [List.append_assoc, List.singleton_append, List.splitOn_append_cons_self]
      exact List.mem_append_right _ hx
  · rwa [String.toList_ofList]

theorem NamesClass.not_beginsWild (h : NamesClass reference) : ¬ BeginsWild reference.toList :=
  fun hwild => not_namesClass_of_part ((beginsWild_trim_iff _).2 hwild) (.inl rfl) rfl h

theorem NamesClass.bound (h : NamesClass reference) : (ofText reference).bound = "" := by
  by_contra hne
  obtain ⟨hbound, tail, htail⟩ := bound_of_ne hne
  have hwild : BeginsWild (trim reference.toList) := htail ▸ beginsWild_of_bound hbound tail
  exact h.not_beginsWild ((beginsWild_trim_iff _).1 hwild)

end Forms

end Reference

namespace Imports

variable {i : Imports} {reference : String}

theorem beginsWild_display_of_isWildcard (hi : Coherent i) (h : Reference.IsWildcard reference) :
    BeginsWild (i.display reference).toList := by
  rw [display, String.append_assoc, String.toList_append]
  by_cases hbound : (Reference.ofText reference).bound = ""
  · have hname := h.resolve_left (not_not.2 hbound)
    rw [hbound, hname, nameOf_of_not_isDotted hi (by decide), String.toList_append]
    exact beginsWild_cons _
  · exact Reference.beginsWild_of_bound (Reference.bound_of_ne hbound).1 _

theorem not_beginsWild_display (h : Reference.NamesClass reference) (hi : Coherent i) :
    ¬ BeginsWild (i.display reference).toList := by
  intro hwild
  have htext := Reference.trim_of_no_bound h.bound
  rw [display, h.bound, String.empty_append, String.toList_append,
    beginsWild_append_iff Reference.not_beginsWild_dimensions] at hwild
  generalize (Reference.ofText reference).className = name at htext hwild
  generalize (Reference.ofText reference).dimensions.toList = dimensions at htext
  -- the class is written in full or by its simple name, which is the last part of it
  by_cases hshort : i.nameOf name = name
  · rw [hshort] at hwild
    have hpart : BeginsWild (name.toList ++ dimensions) := hwild.append dimensions
    exact Reference.not_namesClass_of_part hpart (.inl rfl) htext h
  · have hdotted : isDotted name = true := hi.dotted _ (Coherent.mem_of_nameOf_ne hshort)
    rw [hi.nameOf_eq_simple hshort] at hwild
    have hpart : BeginsWild ((ClassName.simple name).toList ++ dimensions) :=
      hwild.append dimensions
    have hname : name.toList =
        (ClassName.package name).toList ++ ['.'] ++ (ClassName.simple name).toList := by
      conv_lhs => rw [← ClassName.package_dot_simple hdotted]
      simp
    rw [hname, List.append_assoc] at htext
    exact Reference.not_namesClass_of_part hpart (.inr ⟨_, rfl⟩) htext h

theorem beginsWild_display_iff (hi : Coherent i)
    (h : Reference.IsWildcard reference ∨ Reference.NamesClass reference) :
    BeginsWild (i.display reference).toList ↔ BeginsWild reference.toList := by
  rcases h with h | h
  · refine iff_of_true (beginsWild_display_of_isWildcard hi h) ?_
    rw [← beginsWild_trim_iff]
    by_cases hbound : (Reference.ofText reference).bound = ""
    · rw [Reference.trim_of_no_bound hbound, h.resolve_left (not_not.2 hbound)]
      exact beginsWild_cons _
    · obtain ⟨hmem, tail, htail⟩ := Reference.bound_of_ne hbound
      exact htail ▸ Reference.beginsWild_of_bound hmem tail
  · exact iff_of_false (not_beginsWild_display h hi) h.not_beginsWild

end Imports

namespace Java

def Method.types (m : Method) : List TypeRef := m.result.toList ++ m.formals.map (·.type)

def SourceUnit.declaredTypes (u : SourceUnit) : List TypeRef :=
  (u.fields.getD [] ++ u.nestedClasses.flatMap (·.fields)).map (·.type) ++
    u.allMethods.flatMap (·.types)

theorem beginsWild_renderWith (names : Names) (t : TypeExpr) :
    BeginsWild (t.renderWith names).toList ↔ BeginsWild (names t.base).toList := by
  obtain ⟨base, args⟩ := t
  cases args with
  | nil => rfl
  | cons a as =>
    rw [TypeExpr.renderWith, String.append_assoc, String.append_assoc, String.toList_append]
    exact beginsWild_append_iff (by rw [String.toList_append]; nofun) _

end Java

namespace Builder

open Java

variable {s : SupportClasses} {b : Builder} {owner : Expr} {m : Method} {t : TypeRef}

inductive Typed (s : SupportClasses) (b : Builder) : TypeRef → Prop
  | value {p : Parameter} (known : p ∈ b.params) : Typed s b p.typeRef
  | inside {p : Parameter} {inner : TypeExpr} (known : p ∈ b.params)
      (wraps : p.wrapped? = some inner) : Typed s b (unboxed inner).1
  | target : Typed s b (.reference b.target)
  | own {type : String} (declared : b.Declares type) : Typed s b (.written type)
  | collector (kind : CollectionKind) (elements : List TypeExpr) (next : TypeRef) :
      Typed s b (.collector (collectionBuilder s kind) elements next)

theorem Goes.typed {next : Continuation} (h : Goes b owner next) : Typed s b next.type := by
  cases h with
  | stays description declared => exact .own declared
  | advances stage => exact .own (.inr (.inl stage))
  | builds => exact .target

theorem Offered.typed (h : Offered s b owner m) : ∀ t ∈ m.types, Typed s b t := by
  cases h with
  | setter notice known goes =>
    exact List.forall_mem_cons.2 ⟨goes.typed, List.forall_mem_singleton.2 (.value known)⟩
  | innerSetter known goes wraps =>
    exact List.forall_mem_cons.2 ⟨goes.typed, List.forall_mem_singleton.2 (.inside known wraps)⟩
  | accessor elements => exact List.forall_mem_singleton.2 (.collector _ elements _)
  | build => exact List.forall_mem_singleton.2 .target
  | delegatedBuild => exact List.forall_mem_singleton.2 .target

theorem Outer.typed (h : Outer s b m) : ∀ t ∈ m.types, Typed s b t := by
  cases h with
  | hidden => exact List.forall_mem_nil _
  | creator shape mem =>
    have hown : Typed s b (.written b.simpleName) := .own (.inl rfl)
    rcases eq_of_mem_creators mem with rfl | rfl
    · exact List.forall_mem_singleton.2 hown
    · exact List.forall_mem_singleton.2 hown
  | offered shape offered => exact offered.typed
  | factory shape known =>
    exact List.forall_mem_cons.2 ⟨.target, List.forall_mem_singleton.2 (.value known)⟩
  | copy emits =>
    exact List.forall_mem_cons.2 ⟨.own (.inr (.inr ⟨emits, rfl⟩)),
      List.forall_mem_singleton.2 .target⟩

theorem Written.typed (h : Written s b m) : ∀ t ∈ m.types, Typed s b t := by
  cases h with
  | outer outer => exact outer.typed
  | offered offered => exact offered.typed
  | stageConstructor => exact List.forall_mem_singleton.2 (.own (.inl rfl))
  | copyConstructor => exact List.forall_mem_singleton.2 .target

theorem fields_unit : (b.unit s).fields =
    if b.shape = .factory then none else some (b.params.map (field · true)) := rfl

theorem typed_of_field {f : Field} (hf : f ∈ (b.unit s).fields.getD [] ++
    (b.unit s).nestedClasses.flatMap (·.fields)) : Typed s b f.type := by
  have hfields (initialised : Bool) :
      ∀ f ∈ b.params.map (field · initialised), Typed s b f.type :=
    List.forall_mem_map.2 fun p hp => .value hp
  rw [List.mem_append, List.mem_flatMap, nestedClasses_unit] at hf
  rcases hf with hf | ⟨c, hc, hf⟩
  · rw [fields_unit] at hf
    split_ifs at hf
    · cases hf
    · exact hfields true f hf
  · rw [List.mem_append, List.mem_ite_nil_right, List.mem_singleton] at hc
    rcases hc with hc | ⟨-, rfl⟩
    · obtain ⟨p, methods, rfl, -⟩ := eq_stage_of_mem (List.nil_append _).symm hc
      rw [List.mem_singleton.1 hf]
      exact .own (.inl rfl)
    · exact hfields false f hf

theorem typed_of_mem (ht : t ∈ (b.unit s).declaredTypes) : Typed s b t := by
  rw [SourceUnit.declaredTypes, List.mem_append, List.mem_map, List.mem_flatMap] at ht
  rcases ht with ⟨f, hf, rfl⟩ | ⟨m, hm, ht⟩
  · exact typed_of_field hf
  · exact (written_of_mem hm).typed t ht

theorem types_subset (hm : m ∈ (b.unit s).allMethods) : m.types ⊆ (b.unit s).declaredTypes :=
  fun _ ht => List.mem_append_right _ (List.mem_flatMap.2 ⟨m, hm, ht⟩)

theorem typeRef_mem {p : Parameter} (hp : p ∈ b.params) :
    p.typeRef ∈ (b.unit s).declaredTypes := by
  by_cases hshape : b.shape = .factory
  · exact types_subset (factoryMethod_mem hshape hp) (.tail _ (.head _))
  · have hf : field p true ∈ (b.unit s).fields.getD [] := by
      rw [fields_unit, if_neg hshape]
      exact List.mem_map_of_mem hp
    exact List.mem_append_left _ (List.mem_map_of_mem (List.mem_append_left _ hf))

theorem innerSetter_mem {p : Parameter} {inner : TypeExpr} (hw : p.wrapped? = some inner)
    (site : Site) : innerSetter s p optionalClass inner site ∈ fluentSetters s p site := by
  rw [fluentSetters, valueSetter, type_of_wrapped hw, hw]
  exact List.mem_append_left _ (List.mem_append_left _ (List.mem_singleton_self _))

theorem exists_optionalMethods_subset (hshape : b.shape = .staged) (hoptional : b.optional ≠ []) :
    ∃ last, optionalMethods s b last ⊆ (b.unit s).allMethods := by
  obtain ⟨first, rest, hstaged, -⟩ := mandatory_of_staged hshape
  have hmandatory : b.mandatory ≠ [] := hstaged ▸ List.cons_ne_nil _ _
  let last := b.mandatory.getLast hmandatory
  obtain ⟨earlier, hstages⟩ := stagesFrom_append b.mandatory.dropLast last []
  rw [List.dropLast_append_getLast, stagesFrom, if_neg (mt List.isEmpty_iff.1 hoptional)]
    at hstages
  have hlast : b.stage last (optionalMethods s b last) ∈ (b.unit s).nestedClasses := by
    rw [nestedClasses_unit, hstages]
    exact List.mem_append_left _ (List.mem_append_right _ (List.mem_singleton_self _))
  exact ⟨last, fun m hm => List.mem_append_right _ (List.mem_flatMap.2 ⟨_, hlast, .tail _ hm⟩)⟩

theorem exists_innerSetter {p : Parameter} {inner : TypeExpr} (hp : p ∈ b.params)
    (hw : p.wrapped? = some inner) :
    ∃ site, innerSetter s p optionalClass inner site ∈ (b.unit s).allMethods := by
  have hoptional : p ∈ b.optional := by
    refine List.mem_filter.2 ⟨hp, ?_⟩
    rw [Parameter.isMandatory, Parameter.absence, hw]
    rfl
  cases hshape : b.shape with
  | flat =>
    refine ⟨fluentSite .this b.simpleName, List.mem_append_left _ ?_⟩
    rw [methods_flat hshape, flatMethods]
    refine List.mem_append_left _ (List.mem_append_left _ (List.mem_append_right _ ?_))
    exact List.mem_flatMap.2 ⟨p, hp, innerSetter_mem hw _⟩
  | factory =>
    rw [optional_of_factory hshape] at hoptional
    cases hoptional
  | staged =>
    obtain ⟨last, hmethods⟩ :=
      exists_optionalMethods_subset (s := s) hshape (List.ne_nil_of_mem hoptional)
    exact ⟨fluentSite (.name root) (stageName last.name), hmethods
      (List.mem_append_left _ (List.mem_flatMap.2 ⟨p, hoptional, innerSetter_mem hw _⟩))⟩

theorem inside_mem {p : Parameter} {inner : TypeExpr} (hp : p ∈ b.params)
    (hw : p.wrapped? = some inner) : (unboxed inner).1 ∈ (b.unit s).declaredTypes := by
  obtain ⟨site, hm⟩ := exists_innerSetter (s := s) hp hw
  exact types_subset hm (.tail _ (.head _))

theorem not_beginsWild_of_isPrimitive {name : String} (h : isPrimitive name = true) :
    ¬ BeginsWild name.toList := by
  have hprimitives : ∀ x ∈ primitives, ¬ BeginsWild x.toList := by decide
  rw [isPrimitive, List.contains_iff_mem] at h
  have htrim := hprimitives _ h
  rwa [String.toList_ofList, beginsWild_trim_iff] at htrim

theorem not_beginsWild_of_unbox {name : String} (h : isPrimitive (unbox name) = true) :
    ¬ BeginsWild name.toList := by
  have hboxes : ∀ box ∈ boxes ++ boxes.map fun box => ("java.lang." ++ box.1, box.2),
      ¬ BeginsWild box.1.toList := by decide
  unfold unbox at h
  cases hlookup : (boxes ++ boxes.map fun box => ("java.lang." ++ box.1, box.2)).lookup name with
  | none =>
    rw [hlookup] at h
    exact not_beginsWild_of_isPrimitive h
  | some primitive =>
    obtain ⟨before, later, heq, -⟩ := List.lookup_eq_some_iff.1 hlookup
    exact hboxes (name, primitive) (by rw [heq]; simp)

theorem beginsWild_unboxed {names : Names} {inner : TypeExpr}
    (h : BeginsWild (names inner.base).toList ↔ BeginsWild inner.base.toList) :
    BeginsWild ((unboxed inner).1.text names).toList ↔ BeginsWild inner.render.toList := by
  have hrender : BeginsWild inner.render.toList ↔ BeginsWild inner.base.toList :=
    beginsWild_renderWith id inner
  unfold unboxed
  split_ifs with hprimitive
  · rw [Bool.and_eq_true] at hprimitive
    rw [hrender]
    exact iff_of_false (not_beginsWild_of_isPrimitive hprimitive.2)
      (not_beginsWild_of_unbox hprimitive.2)
  · rw [hrender, ← h]
    exact beginsWild_renderWith names inner

def namesBeside (s : SupportClasses) (b : Builder) : List String :=
  [b.target, b.simpleName, s.listBuilder, s.setBuilder, s.mapBuilder]

def finalNames (s : SupportClasses) (b : Builder) : Names :=
  ((b.unit s).imports b.ownNames).display

theorem coherent_imports : Imports.Coherent ((b.unit s).imports b.ownNames) := by
  rw [SourceUnit.imports, Imports.noteAll_eq]
  exact coherent_ownNames.applyAll _

section Beside

variable (hbeside : ∀ r ∈ b.namesBeside s, Reference.NamesClass r)

include hbeside

theorem not_beginsWild_of_declares {type : String} (h : b.Declares type) :
    ¬ BeginsWild type.toList := by
  rcases h with rfl | hstage | ⟨-, rfl⟩
  · exact (hbeside b.simpleName (.tail _ (.head _))).not_beginsWild
  · rw [stageNames_eq, List.mem_map] at hstage
    obtain ⟨p, -, rfl⟩ := hstage
    rw [stageName, String.toList_append]
    intro hwild
    cases hwild
  · decide

theorem not_beginsWild_collector (kind : CollectionKind) (elements : List TypeExpr)
    (next : TypeRef) :
    ¬ BeginsWild ((TypeRef.collector (collectionBuilder s kind) elements next).text
      (b.finalNames s)).toList := by
  have hbuilder : Reference.NamesClass (collectionBuilder s kind) := by
    cases kind with
    | list => exact hbeside _ (.tail _ (.tail _ (.head _)))
    | set => exact hbeside _ (.tail _ (.tail _ (.tail _ (.head _))))
    | map => exact hbeside _ (.tail _ (.tail _ (.tail _ (.tail _ (.head _)))))
  rw [TypeRef.text, String.append_assoc, String.append_assoc, String.append_assoc,
    String.append_assoc, String.toList_append, String.toList_append,
    beginsWild_append_iff (by nofun)]
  exact Imports.not_beginsWild_display hbuilder coherent_imports

theorem declaredTypes_iff :
    (∀ t ∈ (b.unit s).declaredTypes, ¬ BeginsWild (t.text (b.finalNames s)).toList) ↔
      ∀ p ∈ b.params, ¬ BeginsWild (p.typeRef.text (b.finalNames s)).toList ∧
        ∀ inner, p.wrapped? = some inner →
          ¬ BeginsWild ((unboxed inner).1.text (b.finalNames s)).toList := by
  constructor
  · intro h p hp
    exact ⟨h _ (typeRef_mem hp), fun inner hw => h _ (inside_mem hp hw)⟩
  · intro h t ht
    cases typed_of_mem ht with
    | value known => exact (h _ known).1
    | inside known wraps => exact (h _ known).2 _ wraps
    | target => exact Imports.not_beginsWild_display (hbeside _ (.head _)) coherent_imports
    | own declared => exact not_beginsWild_of_declares hbeside declared
    | collector kind elements next => exact not_beginsWild_collector hbeside kind elements next

end Beside

theorem base_mem_bases (type : TypeExpr) : type.base ∈ type.bases := by
  obtain ⟨base, args⟩ := type
  rw [TypeExpr.bases_node]
  exact List.mem_cons_self

section References

variable {p : Parameter}
  (href : ∀ r ∈ p.typeRef.uses, Reference.IsWildcard r ∨ Reference.NamesClass r)

include href

theorem beginsWild_typeRef_iff :
    BeginsWild (p.typeRef.text (b.finalNames s)).toList ↔ BeginsWild p.type.render.toList := by
  unfold Parameter.typeRef at href ⊢
  cases htype : p.type with
  | verbatim text => rfl
  | parsed type =>
    rw [htype] at href
    have hbase : type.base ∈ (TypeRef.expr type).uses := base_mem_bases type
    rw [TypeRef.text, DeclaredType.render, beginsWild_renderWith, TypeExpr.render,
      beginsWild_renderWith]
    exact Imports.beginsWild_display_iff coherent_imports (href _ hbase)

theorem beginsWild_inside_iff {inner : TypeExpr} (hw : p.wrapped? = some inner) :
    BeginsWild ((unboxed inner).1.text (b.finalNames s)).toList ↔
      BeginsWild inner.render.toList := by
  have hbase : inner.base ∈ p.typeRef.uses := by
    rw [Parameter.typeRef, type_of_wrapped hw, TypeRef.uses, TypeExpr.bases_node,
      List.flatMap_singleton]
    exact List.mem_cons_of_mem _ (base_mem_bases inner)
  exact beginsWild_unboxed (Imports.beginsWild_display_iff coherent_imports (href _ hbase))

end References

/--
In a file that is generated the types of parameters and the types in their wrappers are declared as
they stand. So where no name is made up of a wildcard and more and no parameter has a wildcard for
its type, one is declared exactly if a parameter wraps one.
-/
theorem wildcards_declared_iff {text : String} (h : b.source s = .ok text)
    (hbeside : ∀ r ∈ b.namesBeside s, Reference.NamesClass r) :
    text = (b.unit s).text b.ownNames ∧
    ((∀ t ∈ (b.unit s).declaredTypes, ¬ BeginsWild (t.text (b.finalNames s)).toList) ↔
      ∀ p ∈ b.params, ¬ BeginsWild (p.typeRef.text (b.finalNames s)).toList ∧
        ∀ inner, p.wrapped? = some inner →
          ¬ BeginsWild ((unboxed inner).1.text (b.finalNames s)).toList) ∧
    ((∀ p ∈ b.params, ∀ r ∈ p.typeRef.uses,
        Reference.IsWildcard r ∨ Reference.NamesClass r) →
      (∀ p ∈ b.params, ¬ BeginsWild p.type.render.toList) →
      ((∀ t ∈ (b.unit s).declaredTypes, ¬ BeginsWild (t.text (b.finalNames s)).toList) ↔
        ∀ p ∈ b.params, ∀ inner, p.wrapped? = some inner →
          ¬ BeginsWild inner.render.toList)) := by
  have hdeclared := declaredTypes_iff hbeside
  refine ⟨(of_source_eq_ok h).2, hdeclared, fun href hown => hdeclared.trans ?_⟩
  refine forall₂_congr fun p hp => ?_
  have hvalue : ¬ BeginsWild (p.typeRef.text (b.finalNames s)).toList :=
    mt (beginsWild_typeRef_iff (href p hp)).1 (hown p hp)
  rw [and_iff_right hvalue]
  exact forall₂_congr fun inner hw => not_congr (beginsWild_inside_iff (href p hp) hw)

def buoy : Builder where
  target := "me.Buoy"
  name := "me.builder.BuoyBuilder"
  params := [
    { name := "depth", type := .parsed (.node optionalClass [.leaf "Integer"]) },
    { name := "samples", type :=
        .parsed (.node optionalClass [.node "java.util.List" [.leaf "? extends Number"]]) }]
  construction := .direct

theorem buoy_without_wildcards :
    buoy.source {} = .ok ((buoy.unit {}).text buoy.ownNames) ∧
      (∀ r ∈ buoy.namesBeside {}, Reference.NamesClass r) ∧
      (∀ p ∈ buoy.params, ∀ r ∈ p.typeRef.uses,
        Reference.IsWildcard r ∨ Reference.NamesClass r) ∧
      (∃ p ∈ buoy.params, ∃ r ∈ p.typeRef.uses, Reference.IsWildcard r) ∧
      ∀ t ∈ (buoy.unit {}).declaredTypes, ¬ BeginsWild (t.text (buoy.finalNames {})).toList := by
  have hsource : buoy.source {} = .ok ((buoy.unit {}).text buoy.ownNames) := rfl
  have hbeside : ∀ r ∈ buoy.namesBeside {}, Reference.NamesClass r := by decide +kernel
  have href : ∀ p ∈ buoy.params, ∀ r ∈ p.typeRef.uses,
      Reference.IsWildcard r ∨ Reference.NamesClass r := by decide +kernel
  have hown : ∀ p ∈ buoy.params, ¬ BeginsWild p.type.render.toList := by decide +kernel
  obtain ⟨-, -, hdeclared⟩ := wildcards_declared_iff hsource hbeside
  refine ⟨hsource, hbeside, href, by decide +kernel, (hdeclared href hown).2 ?_⟩
  have hinside : ∀ p ∈ buoy.params, ∀ inner ∈ p.wrapped?, ¬ BeginsWild inner.render.toList := by
    decide +kernel
  exact hinside

def gauge : Builder where
  target := "me.Gauge"
  name := "me.builder.GaugeBuilder"
  params := [
    { name := "reading", type := .parsed (.node optionalClass [.leaf "? extends Number"]) }]
  construction := .direct
  copy := false

theorem gauge_takes_wildcard :
    (¬ ∀ (s : SupportClasses) (b : Builder) (text : String), b.source s = .ok text →
      (∀ r ∈ b.namesBeside s, Reference.NamesClass r) →
      (∀ p ∈ b.params, ∀ r ∈ p.typeRef.uses,
        Reference.IsWildcard r ∨ Reference.NamesClass r) →
      (∀ p ∈ b.params, ¬ BeginsWild p.type.render.toList) →
      ∀ t ∈ (b.unit s).declaredTypes, ¬ BeginsWild (t.text (b.finalNames s)).toList) ∧
    Parameter.ofDecl { name := "reading", type := "Optional<? extends Number>" } =
      .ok gauge.params[0] ∧
    gauge.source {} = .ok ((gauge.unit {}).text gauge.ownNames) ∧
    ∃ m ∈ (gauge.unit {}).allMethods,
      m.formals.map (·.text (gauge.finalNames {})) = ["@Nonnull ? extends Number reading"] := by
  have hsource : gauge.source {} = .ok ((gauge.unit {}).text gauge.ownNames) := rfl
  refine ⟨fun h => ?_, by decide +kernel, hsource, by decide +kernel⟩
  have hnone := h {} gauge _ hsource (by decide +kernel) (by decide +kernel) (by decide +kernel)
  exact absurd hnone (by decide +kernel)

end Builder

end StagedBuilder
