import Mathlib.Data.List.Nodup
import Mathlib.Tactic.Tauto
import StagedBuilder.Identifier
import StagedBuilder.Proofs.ClassNameLaws
import StagedBuilder.Proofs.TreeLaws

namespace StagedBuilder

open FileTree (components enter place)

theorem Text.pieces_eq_splitOn (c : Char) (s : List Char) : pieces (· = c) s = s.splitOn c := by
  induction s with
  | nil => rfl
  | cons d s ih =>
    rw [pieces, List.splitOn_cons_eq_if_modifyHead, ih]
    by_cases hd : d = c
    · simp [hd]
    · obtain ⟨w, ws, hw⟩ := List.exists_cons_of_ne_nil (List.splitOn_ne_nil c s)
      simp [hd, hw]

theorem Text.not_mem_pieces (c : Char) (s : List Char) : ∀ w ∈ pieces (· = c) s, c ∉ w := by
  induction s with
  | nil => simp [pieces]
  | cons d s ih =>
    rw [pieces]
    split_ifs with hd
    · exact List.forall_mem_cons.2 ⟨List.not_mem_nil, ih⟩
    · have hdc : c ≠ d := fun heq => hd (decide_eq_true heq.symm)
      cases hs : pieces (· = c) s with
      | nil => simpa using hdc
      | cons w ws =>
        obtain ⟨hw, hws⟩ := List.forall_mem_cons.1 (hs ▸ ih)
        exact List.forall_mem_cons.2 ⟨List.not_mem_cons_of_ne_of_not_mem hdc hw, hws⟩

theorem components_eq (path : String) :
    components path = (path.toList.splitOn '/').map .ofList := by
  rw [components, Text.pieces_eq_splitOn]

theorem isIdentifier_iff {name : String} :
    isIdentifier name = true ↔ ∃ c cs, name.toList = c :: cs ∧ startsIdentifier c = true ∧
      cs.all continuesIdentifier = true := by
  unfold isIdentifier identifierFault?
  split
  · simp_all
  · split_ifs <;> simp_all

theorem continues_of_isIdentifier {name : String} (h : isIdentifier name = true) {c : Char}
    (hc : c ∈ name.toList) : continuesIdentifier c = true := by
  obtain ⟨d, ds, hname, hd, hds⟩ := isIdentifier_iff.1 h
  rw [hname] at hc
  rcases List.mem_cons.1 hc with rfl | hc
  · simp only [startsIdentifier, Bool.or_eq_true, decide_eq_true_eq] at hd
    simp only [continuesIdentifier, Bool.or_eq_true, decide_eq_true_eq]
    tauto
  · exact List.all_eq_true.1 hds c hc

theorem all_continues_of_isIdentifier {name : String} (h : isIdentifier name = true) :
    name.toList.all continuesIdentifier = true :=
  List.all_eq_true.2 fun _ => continues_of_isIdentifier h

theorem dot_not_mem {name : String} (h : name.toList.all continuesIdentifier = true) :
    '.' ∉ name.toList := by
  have hdot : continuesIdentifier '.' = false := by decide +kernel
  intro hmem
  rw [List.all_eq_true.1 h _ hmem] at hdot
  cases hdot

theorem slash_not_mem {name : String} (h : name.toList.all continuesIdentifier = true) :
    '/' ∉ name.toList := by
  have hslash : continuesIdentifier '/' = false := by decide +kernel
  intro hmem
  rw [List.all_eq_true.1 h _ hmem] at hslash
  cases hslash

structure IsEntryName (name : String) : Prop where
  ne_empty : name ≠ ""
  ne_dot : name ≠ "."
  ne_dots : name ≠ ".."
  slash_not_mem : '/' ∉ name.toList

theorem isEntryName_of_dot_not_mem {name : String} (hname : name ≠ "") (hdot : '.' ∉ name.toList)
    (hslash : '/' ∉ name.toList) : IsEntryName name := by
  refine ⟨hname, ?_, ?_, hslash⟩
  · rintro rfl
    exact hdot (by decide)
  · rintro rfl
    exact hdot (by decide)

theorem isEntryName_java {name : String} (h : '/' ∉ name.toList) :
    IsEntryName (name ++ ".java") := by
  have hlength : ∀ s : String, s.toList.length < 5 → name ++ ".java" ≠ s := by
    rintro s hs rfl
    rw [String.toList_append, List.length_append] at hs
    exact absurd hs (Nat.not_lt.2 (Nat.le_add_left 5 _))
  refine ⟨hlength _ (by decide), hlength _ (by decide), hlength _ (by decide), ?_⟩
  rw [String.toList_append, List.mem_append, not_or]
  exact ⟨h, by decide⟩

namespace IsEntryName

variable {name : String} {names : List String}

theorem enter (h : IsEntryName name) (location : List String) :
    enter location name = location ++ [name] := by
  rw [FileTree.enter, if_neg (not_or.2 ⟨h.ne_empty, h.ne_dot⟩), if_neg h.ne_dots]

theorem foldl_enter (h : ∀ n ∈ names, IsEntryName n) (location : List String) :
    names.foldl FileTree.enter location = location ++ names := by
  induction names generalizing location with
  | nil => simp
  | cons n names ih =>
    obtain ⟨hn, hnames⟩ := List.forall_mem_cons.1 h
    rw [List.foldl_cons, hn.enter, ih hnames, List.append_assoc, List.singleton_append]

theorem components (h : IsEntryName name) : components name = [name] := by
  rw [components_eq, List.splitOn_eq_singleton h.slash_not_mem, List.map_singleton,
    String.ofList_toList]

end IsEntryName

namespace ClassName

def front (base : String) : List String :=
  if base.toList.getLast?.all (· = '/') then (components base).dropLast else components base

theorem front_empty : front "" = [] := by decide

theorem components_step {base part : String} (h : part.toList.head? ≠ some '/') :
    components (step base part) = front base ++ components part := by
  rw [step, if_neg h, front]
  split_ifs with hend
  · rcases List.eq_nil_or_concat base.toList with hbase | ⟨cs, c, hbase⟩
    · obtain rfl : base = "" := String.toList_eq_nil_iff.1 hbase
      rw [String.empty_append]
      rfl
    · obtain rfl : c = '/' := by simpa [hbase] using hend
      simp only [components_eq, String.toList_append, hbase, List.concat_eq_append,
        List.append_assoc, List.singleton_append, List.splitOn_append_cons_self, List.map_append]
      simp
  · simp only [components_eq, String.toList_append, List.append_assoc]
    rw [show "/".toList ++ part.toList = '/' :: part.toList from rfl,
      List.splitOn_append_cons_self, List.map_append]

theorem front_prefix (base : String) : front base <+: components base := by
  unfold front
  split_ifs
  · exact List.dropLast_prefix _
  · exact List.prefix_rfl

theorem head?_ne_of_components {path c : String} {cs : List String}
    (h : components path = c :: cs) (hc : c ≠ "") : path.toList.head? ≠ some '/' := by
  intro hhead
  obtain ⟨rest, hrest⟩ := List.head?_eq_some_iff.1 hhead
  rw [components_eq, hrest, ← List.nil_append ('/' :: rest), List.splitOn_append_cons_self] at h
  exact hc (List.cons.inj h).1.symm

section Directories

variable {base name : String} {names : List String}

theorem exists_step (base name : String) : ∃ lead, step base name = lead ++ name := by
  unfold step
  split_ifs
  · exact ⟨"", by rw [String.empty_append]⟩
  · exact ⟨base, rfl⟩
  · exact ⟨base ++ "/", rfl⟩

theorem front_step (h : IsEntryName name) (base : String) :
    front (step base name) = front base ++ [name] := by
  obtain ⟨lead, hlead⟩ := exists_step base name
  have hname : name.toList ≠ [] := mt String.toList_eq_nil_iff.1 h.ne_empty
  have hend : (step base name).toList.getLast?.all (· = '/') = false := by
    rw [hlead, String.toList_append, List.getLast?_append_of_ne_nil _ hname,
      List.getLast?_eq_some_getLast hname, Option.all_some, decide_eq_false_iff_not]
    intro heq
    exact h.slash_not_mem (heq ▸ List.getLast_mem hname)
  rw [front, hend, if_neg Bool.false_ne_true, components_step, h.components]
  exact head?_ne_of_components h.components h.ne_empty

theorem front_foldl (h : ∀ n ∈ names, IsEntryName n) (base : String) :
    front (names.foldl step base) = front base ++ names := by
  induction names generalizing base with
  | nil => simp
  | cons n names ih =>
    obtain ⟨hn, hnames⟩ := List.forall_mem_cons.1 h
    rw [List.foldl_cons, ih hnames, front_step hn, List.append_assoc, List.singleton_append]

end Directories

def WellFormed (name : String) : Prop := ∀ s ∈ segments name, isIdentifier s = true

structure Spelled (name : String) : Prop where
  letters : ∀ s ∈ segments name, s.toList.all continuesIdentifier = true
  inner : ∀ s ∈ (segments name).dropLast, s ≠ ""

def parts (name : String) : List String :=
  (segments (package name)).filter (· ≠ "") ++ [simple name ++ ".java"]

theorem segments_eq (name : String) :
    segments name = (name.toList.splitOn '.').map .ofList := by
  rw [segments, Text.pieces_eq_splitOn]

theorem segments_of_isDotted {name : String} (h : Imports.isDotted name = true) :
    segments name = segments (package name) ++ [simple name] := by
  have hsimple : '.' ∉ (simple name).toList := by
    rw [← isDotted_iff, not_isDotted_simple]
    exact Bool.false_ne_true
  have htext : name.toList = (package name).toList ++ '.' :: (simple name).toList := by
    conv_lhs => rw [← package_dot_simple h]
    simp
  rw [segments_eq, segments_eq, htext, List.splitOn_append_cons_self, List.map_append,
    List.splitOn_eq_singleton hsimple, List.map_singleton, String.ofList_toList]

theorem segments_of_not_isDotted {name : String} (h : Imports.isDotted name = false) :
    segments name = [name] := by
  have hname : '.' ∉ name.toList := by
    rw [← isDotted_iff, h]
    exact Bool.false_ne_true
  rw [segments_eq, List.splitOn_eq_singleton hname, List.map_singleton, String.ofList_toList]

theorem eq_of_segments {name other : String} (h : segments name = segments other) :
    name = other := by
  rw [segments_eq, segments_eq] at h
  have hsplit := List.map_injective_iff.2 (fun _ _ => String.ofList_injective) h
  rw [← String.toList_inj]
  calc
    name.toList = ['.'].intercalate (name.toList.splitOn '.') := (List.intercalate_splitOn _).symm
    _ = ['.'].intercalate (other.toList.splitOn '.') := by rw [hsplit]
    _ = other.toList := List.intercalate_splitOn _

theorem WellFormed.spelled {name : String} (h : WellFormed name) : Spelled name where
  letters s hs := all_continues_of_isIdentifier (h s hs)
  inner s hs := by
    rintro rfl
    exact Bool.false_ne_true (h _ (List.dropLast_subset _ hs))

/-- The segments can be names of directories, but the last may be empty. -/
structure Placeable (name : String) : Prop where
  slash_not_mem : ∀ s ∈ segments name, '/' ∉ s.toList
  inner : ∀ s ∈ (segments name).dropLast, s ≠ ""

theorem Spelled.placeable {name : String} (h : Spelled name) : Placeable name where
  slash_not_mem s hs := StagedBuilder.slash_not_mem (h.letters s hs)
  inner := h.inner

theorem dot_not_mem_segments (name : String) : ∀ s ∈ segments name, '.' ∉ s.toList := by
  rw [segments, List.forall_mem_map]
  intro s hs
  rw [String.toList_ofList]
  exact Text.not_mem_pieces '.' name.toList s hs

namespace Placeable

variable {name other : String}

theorem segments_eq (h : Placeable name) :
    segments name = (segments (package name)).filter (· ≠ "") ++ [simple name] := by
  cases hdot : Imports.isDotted name with
  | false =>
    rw [segments_of_not_isDotted hdot, package_of_not_isDotted hdot, simple_of_not_isDotted hdot]
    rfl
  | true =>
    have hsegments := segments_of_isDotted hdot
    have hpackage : (segments (package name)).filter (· ≠ "") = segments (package name) := by
      rw [List.filter_eq_self]
      intro s hs
      refine decide_eq_true (h.inner s ?_)
      rw [hsegments, List.dropLast_concat]
      exact hs
    rw [hpackage, hsegments]

theorem isEntryName (h : Placeable name) : ∀ n ∈ parts name, IsEntryName n := by
  have hsegments := h.segments_eq
  rw [parts, List.forall_mem_append, List.forall_mem_singleton]
  refine ⟨?_, isEntryName_java (h.slash_not_mem _ ?_)⟩
  · intro s hs
    have hmem : s ∈ segments name := hsegments ▸ List.mem_append_left _ hs
    exact isEntryName_of_dot_not_mem (of_decide_eq_true (List.mem_filter.1 hs).2)
      (dot_not_mem_segments name s hmem) (h.slash_not_mem s hmem)
  · rw [hsegments]
    exact List.mem_append_right _ (List.mem_singleton_self _)

theorem components_sourcePath (h : Placeable name) : components (sourcePath name) = parts name := by
  obtain ⟨hpackage, hfile⟩ := List.forall_mem_append.1 h.isEntryName
  rw [List.forall_mem_singleton] at hfile
  rw [sourcePath, components_step (head?_ne_of_components hfile.components hfile.ne_empty),
    front_foldl hpackage, hfile.components, front_empty, List.nil_append, parts]

theorem components_below (h : Placeable name) (base : String) :
    components (step base (sourcePath name)) = front base ++ parts name := by
  obtain ⟨c, cs, hparts⟩ : ∃ c cs, parts name = c :: cs :=
    List.exists_cons_of_ne_nil (by simp [parts])
  have hc : IsEntryName c := h.isEntryName c (by simp [hparts])
  have hpath := h.components_sourcePath
  rw [components_step (head?_ne_of_components (hpath.trans hparts) hc.ne_empty), hpath]

theorem place_below (h : Placeable name) (base : String) :
    place (step base (sourcePath name)) = (front base).foldl enter [] ++ parts name := by
  rw [place, h.components_below, List.foldl_append, IsEntryName.foldl_enter h.isEntryName]

theorem eq_of_parts (h : Placeable name) (h' : Placeable other) (heq : parts name = parts other) :
    name = other := by
  obtain ⟨hpackage, hfile⟩ := List.append_inj' heq (by simp)
  have hsimple : simple name = simple other := by
    rw [← String.toList_inj]
    simpa using congrArg String.toList (List.singleton_inj.1 hfile)
  apply eq_of_segments
  rw [h.segments_eq, h'.segments_eq, hpackage, hsimple]

end Placeable

theorem Spelled.eq_of_place {name other : String} (h : Spelled name) (h' : Spelled other)
    {base : String}
    (heq : place (step base (sourcePath name)) = place (step base (sourcePath other))) :
    name = other := by
  rw [h.placeable.place_below, h'.placeable.place_below, List.append_cancel_left_eq] at heq
  exact h.placeable.eq_of_parts h'.placeable heq

end ClassName

theorem FileTree.BacksOut.front_append {t : FileTree} {base : String} (h : t.BacksOut base)
    {names : List String} (hnames : ∀ n ∈ names, IsEntryName n) {before after : List String}
    (heq : ClassName.front base ++ names = before ++ ".." :: after) :
    t.entry? (before.foldl FileTree.enter []) = some .directory := by
  obtain ⟨rest, hrest⟩ := ClassName.front_prefix base
  have hdots : ".." ∉ names := fun hmem => (hnames _ hmem).ne_dots rfl
  rcases List.append_eq_append_iff.1 heq with ⟨lead, -, htail⟩ | ⟨tail, hfront, htail⟩
  · exact absurd (by simp [htail]) hdots
  · cases tail with
    | nil =>
      rw [List.nil_append] at htail
      exact absurd (by simp [← htail]) hdots
    | cons c tail =>
      obtain ⟨rfl, rfl⟩ := List.cons.inj htail
      exact h before (tail ++ rest) (by rw [← hrest, hfront, List.append_assoc, List.cons_append])

end StagedBuilder
