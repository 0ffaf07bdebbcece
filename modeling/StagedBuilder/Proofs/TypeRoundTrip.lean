import StagedBuilder.Proofs.TypeSpacing
import StagedBuilder.Vocabulary

namespace StagedBuilder.TypeExpr

open Text

theorem renderAllWith_eq_map (name : String → String) (ts : List TypeExpr) :
    renderAllWith name ts = ts.map (·.renderWith name) := by
  induction ts with
  | nil => rfl
  | cons t ts ih => rw [renderAllWith, ih, List.map_cons]

theorem toList_render_leaf (base : String) : (leaf base).render.toList = base.toList := rfl

theorem toList_render_node (base : String) {args : List TypeExpr} (h : args ≠ []) :
    (node base args).render.toList =
      base.toList ++
        '<' :: (List.intercalate [',', ' '] (args.map fun a => a.render.toList) ++ ['>']) := by
  cases args with
  | nil => exact absurd rfl h
  | cons a as =>
    simp [render, renderWith, renderAllWith_eq_map, String.toList_intercalate, Function.comp_def]

theorem squeeze_render {s : List Char} {t : TypeExpr} (h : Denotes s t) :
    squeeze t.render.toList = squeeze s := by
  induction h with
  | @leaf s plain => rw [toList_render_leaf, String.toList_ofList, squeeze_trim]
  | @node s base parts division args ih =>
    have hne : parts.map Prod.snd ≠ [] := by simpa using division.args_ne
    have hargs : ((parts.map Prod.snd).map fun a => a.render.toList).map squeeze =
        (parts.map Prod.fst).map squeeze := by
      simpa using ih
    have hsep : squeeze [',', ' '] = squeeze [','] := by decide
    rw [toList_render_node _ hne, String.toList_ofList, ← squeeze_trim s, division.shape]
    calc
      _ = squeeze base ++ (squeeze ['<'] ++ (List.intercalate (squeeze [','])
            ((parts.map Prod.fst).map squeeze) ++ squeeze ['>'])) := by
        rw [squeeze_append, squeeze_trim, ← List.singleton_append, squeeze_append, squeeze_append,
          squeeze_intercalate, hargs, hsep]
      _ = _ := by
        rw [← squeeze_intercalate, ← squeeze_append, ← squeeze_append, ← squeeze_append,
          List.singleton_append]

structure IsArgument (t : TypeExpr) : Prop where
  named : t.base ≠ ""
  no_comma : ',' ∉ t.base.toList

structure IsBase (base : String) : Prop where
  plain : IsPlain base.toList
  trimmed : trim base.toList = base.toList

inductive IsCanonical : TypeExpr → Prop
  | leaf {base : String} (proper : IsBase base) : IsCanonical (leaf base)
  | node {base : String} {args : List TypeExpr} (proper : IsBase base) (named : base ≠ "")
      (args_ne : args ≠ []) (arguments : ∀ a ∈ args, IsArgument a)
      (canonical : ∀ a ∈ args, IsCanonical a) : IsCanonical (.node base args)

theorem isBase_ofList {s : List Char} (h : IsPlain s) : IsBase (.ofList (trim s)) where
  plain := by rwa [String.toList_ofList, isPlain_trim]
  trimmed := by rw [String.toList_ofList, trim_trim]

theorem ofList_trim_ne {s : List Char} (h : ¬Blank s) : String.ofList (trim s) ≠ "" := by
  intro heq
  apply h
  rw [← trim_eq_nil_iff, ← String.toList_ofList (l := trim s), heq]
  rfl

theorem isArgument_of_denotes {s : List Char} {t : TypeExpr} (h : Denotes s t)
    (hvisible : ¬Blank s) (henclosed : EnclosesCommas 0 s) : IsArgument t := by
  cases h with
  | leaf plain =>
    refine ⟨ofList_trim_ne hvisible, ?_⟩
    have hcomma : ',' ∉ s :=
      comma_not_mem [] (by simpa using henclosed) (isPlain_trim.1 plain)
    change ',' ∉ (String.ofList (trim s)).toList
    rwa [String.toList_ofList, mem_trim_iff (by decide)]
  | @node _ base parts division args =>
    obtain ⟨b, rest, rfl, hplain, hnamed, hrest, htrim⟩ := brackets_of_denotes division
    refine ⟨ofList_trim_ne division.named, ?_⟩
    change ',' ∉ (String.ofList (trim base)).toList
    rw [String.toList_ofList, ← htrim, mem_trim_iff (by decide)]
    exact comma_not_mem _ henclosed hplain

theorem isCanonical_of_denotes {s : List Char} {t : TypeExpr} (h : Denotes s t) :
    IsCanonical t := by
  induction h with
  | leaf plain => exact .leaf (isBase_ofList (isPlain_trim.1 plain))
  | node division args ih =>
    refine .node (isBase_ofList division.plain) (ofList_trim_ne division.named) ?_ ?_ ?_
    · simpa using division.args_ne
    · rw [List.forall_mem_map]
      intro p hp
      have hmem := List.mem_map_of_mem (f := Prod.fst) hp
      exact isArgument_of_denotes (args p hp) (division.visible _ hmem) (division.enclosed _ hmem)
    · rwa [List.forall_mem_map]

theorem balanced_render {t : TypeExpr} (h : IsCanonical t) :
    bracketFault? 0 t.render.toList = none := by
  induction h with
  | leaf proper =>
    rw [toList_render_leaf]
    simpa [bracketFault?] using bracketFault?_plain proper.plain 0 []
  | @node base args proper named args_ne arguments canonical ih =>
    have hinner : bracketFault? 0
        (List.intercalate [',', ' '] (args.map fun a => a.render.toList)) = none :=
      bracketFault?_intercalate (by decide) (List.forall_mem_map.2 ih)
    rw [toList_render_node base args_ne, bracketFault?_plain proper.plain,
      bracketFault?_cons (by decide)]
    exact bracketFault?_append hinner 1 ['>']

theorem enclosesCommas_brackets {base inner : List Char} (hplain : IsPlain base)
    (hcomma : ',' ∉ base) (hinner : bracketFault? 0 inner = none) :
    EnclosesCommas 0 (base ++ '<' :: (inner ++ ['>'])) := by
  intro before after heq
  rcases cut_of_append_eq heq with ⟨m, rfl, -⟩ | ⟨m, rfl, hm⟩
  · simp at hcomma
  · cases m with
    | nil => simp at hm
    | cons c x =>
      obtain ⟨rfl, hx⟩ := List.cons.inj hm
      rcases cut_of_append_eq hx with ⟨y, rfl, -⟩ | ⟨y, rfl, hy⟩
      · have := count_le_of_balanced hinner
        obtain ⟨hopen, hclose⟩ := count_of_plain hplain
        simp [List.count_append, hopen, hclose]
        omega
      · cases y <;> simp at hy

theorem enclosesCommas_render {t : TypeExpr} (h : IsCanonical t) (ha : IsArgument t) :
    EnclosesCommas 0 t.render.toList := by
  cases h with
  | leaf proper =>
    intro before after heq
    rw [toList_render_leaf] at heq
    exact absurd (heq ▸ by simp) ha.no_comma
  | @node base args proper named args_ne arguments canonical =>
    rw [toList_render_node base args_ne]
    refine enclosesCommas_brackets proper.plain ha.no_comma ?_
    apply bracketFault?_intercalate (by decide)
    rw [List.forall_mem_map]
    intro a ha
    exact balanced_render (canonical a ha)

theorem IsBase.not_blank {base : String} (h : IsBase base) (hne : base ≠ "") :
    ¬Blank base.toList := by
  rw [← trim_eq_nil_iff, h.trimmed]
  simpa using hne

theorem not_blank_render {t : TypeExpr} (h : IsCanonical t) (ha : IsArgument t) :
    ¬Blank t.render.toList := by
  cases h with
  | leaf proper => exact proper.not_blank ha.named
  | node proper named args_ne arguments canonical =>
    rw [toList_render_node _ args_ne]
    intro hblank
    exact proper.not_blank named (blank_append.1 hblank).1

def writtenParts : List TypeExpr → List (List Char × TypeExpr)
  | [] => []
  | a :: as => (a.render.toList, a) :: as.map fun b => (' ' :: b.render.toList, b)

theorem map_snd_writtenParts (ts : List TypeExpr) : (writtenParts ts).map Prod.snd = ts := by
  cases ts with
  | nil => rfl
  | cons t ts => simp [writtenParts, Function.comp_def]

theorem intercalate_spaced (x : List Char) (ys : List (List Char)) :
    List.intercalate [','] (x :: ys.map (' ' :: ·)) = List.intercalate [',', ' '] (x :: ys) := by
  induction ys generalizing x with
  | nil => simp
  | cons y ys ih =>
    rw [List.map_cons, List.intercalate_cons_cons, ih, List.intercalate_cons_cons]
    cases ys with
    | nil => simp
    | cons z ys => simp [List.intercalate_cons_cons]

theorem intercalate_writtenParts (ts : List TypeExpr) :
    List.intercalate [','] ((writtenParts ts).map Prod.fst) =
      List.intercalate [',', ' '] (ts.map fun t => t.render.toList) := by
  cases ts with
  | nil => rfl
  | cons t ts =>
    have := intercalate_spaced t.render.toList (ts.map fun t => t.render.toList)
    simpa [writtenParts, Function.comp_def] using this

theorem forall_writtenParts {P : List Char → TypeExpr → Prop} {ts : List TypeExpr}
    (hblank : ∀ s t, P s t → P (' ' :: s) t) (h : ∀ t ∈ ts, P t.render.toList t) :
    ∀ p ∈ writtenParts ts, P p.1 p.2 := by
  cases ts with
  | nil => simp [writtenParts]
  | cons t ts =>
    obtain ⟨ht, hts⟩ := List.forall_mem_cons.1 h
    refine List.forall_mem_cons.2 ⟨ht, List.forall_mem_map.2 ?_⟩
    intro u hu
    exact hblank _ _ (hts u hu)

theorem denotes_render {t : TypeExpr} (h : IsCanonical t) : Denotes t.render.toList t := by
  induction h with
  | @leaf base proper =>
    have hleaf := Denotes.leaf (s := base.toList) (isPlain_trim.2 proper.plain)
    rwa [proper.trimmed, String.ofList_toList] at hleaf
  | @node base args proper named args_ne arguments canonical ih =>
    have hspace : Blank [' '] := by decide
    have htext : (node base args).render.toList = base.toList ++
        '<' :: (List.intercalate [','] ((writtenParts args).map Prod.fst) ++ '>' :: []) := by
      rw [toList_render_node base args_ne, intercalate_writtenParts]
    have htype : node base args =
        .node (.ofList (trim base.toList)) ((writtenParts args).map Prod.snd) := by
      rw [map_snd_writtenParts, proper.trimmed, String.ofList_toList]
    rw [htext, htype]
    refine denotes_brackets proper.plain (proper.not_blank named) ?_ ?_ ?_ ?_ blank_nil
    · intro hnil
      apply args_ne
      rw [← map_snd_writtenParts args, hnil]
      rfl
    · refine forall_writtenParts (P := fun s _ => ¬Blank s) ?_ ?_
      · intro s t hs hblank
        exact hs (blank_cons.1 hblank).2
      · intro a ha
        exact not_blank_render (canonical a ha) (arguments a ha)
    · refine forall_writtenParts (P := fun s _ => EnclosesCommas 0 s) ?_ ?_
      · intro s t hs
        exact (enclosesCommas_cons (by decide)).2 ⟨by decide, hs⟩
      · intro a ha
        exact enclosesCommas_render (canonical a ha) (arguments a ha)
    · refine forall_writtenParts (P := Denotes) ?_ ih
      intro s t hs
      exact hs.of_trim_eq (trim_blank_append hspace s)

theorem qualifyAll_eq_map (ts : List TypeExpr) : qualifyAll ts = ts.map qualify := by
  induction ts with
  | nil => rfl
  | cons t ts ih => rw [qualifyAll, ih, List.map_cons]

def qualified (base : String) : String := (bareNames.lookup base).getD base

theorem qualify_node (base : String) (args : List TypeExpr) :
    (node base args).qualify = node (qualified base) (args.map qualify) := by
  rw [qualify, qualifyAll_eq_map, qualified]

theorem qualified_eq_or (base : String) :
    qualified base = base ∨
      IsBase (qualified base) ∧ qualified base ≠ "" ∧ ',' ∉ (qualified base).toList := by
  have hall : ∀ entry ∈ bareNames, (IsPlain entry.2.toList ∧
      trim entry.2.toList = entry.2.toList) ∧ entry.2 ≠ "" ∧ ',' ∉ entry.2.toList := by
    decide
  unfold qualified
  cases h : bareNames.lookup base with
  | none => exact .inl rfl
  | some name =>
    obtain ⟨before, after, heq, -⟩ := List.lookup_eq_some_iff.1 h
    obtain ⟨⟨hplain, htrimmed⟩, hproper⟩ := hall (base, name) (by rw [heq]; simp)
    exact .inr ⟨⟨hplain, htrimmed⟩, hproper⟩

theorem IsBase.qualified {base : String} (h : IsBase base) : IsBase (qualified base) := by
  rcases qualified_eq_or base with heq | hbase
  · rwa [heq]
  · exact hbase.1

theorem qualified_ne {base : String} (h : base ≠ "") : qualified base ≠ "" := by
  rcases qualified_eq_or base with heq | hbase
  · rwa [heq]
  · exact hbase.2.1

theorem IsArgument.qualify {t : TypeExpr} (h : IsArgument t) : IsArgument t.qualify := by
  obtain ⟨base, args⟩ := t
  rw [qualify_node]
  refine ⟨qualified_ne h.named, ?_⟩
  rcases qualified_eq_or base with heq | hbase
  · rw [heq]
    exact h.no_comma
  · exact hbase.2.2

theorem IsCanonical.qualify {t : TypeExpr} (h : IsCanonical t) : IsCanonical t.qualify := by
  induction h with
  | leaf proper => exact .leaf proper.qualified
  | node proper named args_ne arguments canonical ih =>
    rw [qualify_node]
    refine .node proper.qualified (qualified_ne named) (by simpa using args_ne) ?_ ?_
    · rw [List.forall_mem_map]
      intro a ha
      exact (arguments a ha).qualify
    · rwa [List.forall_mem_map]

/--
A type that was read is written as the text it was read from up to blanks, and that text is read as
the type again: among the texts of a type it is the one that the type writes. Blanks next to
brackets, next to commas inside of them and at the ends do not matter.
-/
theorem text_round_trip {s : String} {t : TypeExpr} (h : parse s = .ok t) :
    squeeze t.render.toList = squeeze s.toList ∧
    parse t.render = .ok t ∧
    (∀ s' t', parse s' = .ok t' → (t'.render = t.render ↔ t' = t)) ∧
    (∀ s', Respaced s.toList s'.toList → parse s' = .ok t) ∧
    parse t.qualify.render = .ok t.qualify := by
  have hs : Denotes s.toList t := denotes_of_parse h
  have hread {u : TypeExpr} (hu : IsCanonical u) : parse u.render = .ok u :=
    parse_of_denotes (denotes_render hu)
  have ht : IsCanonical t := isCanonical_of_denotes hs
  refine ⟨squeeze_render hs, hread ht, ?_, ?_, hread ht.qualify⟩
  · intro s' t' h'
    refine ⟨?_, ?_⟩
    · intro heq
      have ht' := hread (isCanonical_of_denotes (denotes_of_parse h'))
      rw [heq, hread ht] at ht'
      exact (Except.ok.inj ht').symm
    · rintro rfl
      rfl
  · intro s' hrespaced
    exact parse_of_denotes (hs.respaced hrespaced)

def boundedMap : TypeExpr := .node "Map" [leaf "K", .node "List" [leaf "? extends V"]]

theorem boundedMap_round_trip :
    parse " Map < K ,List<? extends V >> " = .ok boundedMap ∧
      boundedMap.render = "Map<K, List<? extends V>>" ∧
      parse boundedMap.render = .ok boundedMap ∧
      parse " Map < K ,\u2003List<? extends V >> " = .ok boundedMap ∧
      boundedMap.qualify.render = "java.util.Map<K, java.util.List<? extends V>>" ∧
      parse boundedMap.qualify.render = .ok boundedMap.qualify := by
  have h : parse " Map < K ,List<? extends V >> " = .ok boundedMap := by decide +kernel
  have hgap : Respaced " Map < K ,List<? extends V >> ".toList
      " Map < K ,\u2003List<? extends V >> ".toList :=
    ⟨" Map < K ,".toList, [], ['\u2003'], "List<? extends V >> ".toList, by decide, by decide,
      by decide, by decide, .inr (.inr ⟨',', by decide, by decide⟩)⟩
  obtain ⟨-, hread, -, hrespaced, hqualified⟩ := text_round_trip h
  exact ⟨h, by decide, hread, hrespaced _ hgap, by decide, hqualified⟩

end StagedBuilder.TypeExpr
