import StagedBuilder.Proofs.ReferenceLaws
import StagedBuilder.Proofs.RunLaws
import StagedBuilder.Proofs.WordLaws

namespace StagedBuilder

namespace Text

def keepsBlanks (c : Char) : Bool := !(['<', '>', ',', '['].contains c)

def singleSpaced (s : List Char) : List Char := List.intercalate [' '] (words s)

def tightened (s : List Char) : List Char := mapRuns keepsBlanks singleSpaced s

variable {c : Char} {s t x y w : List Char}

theorem keepsBlanks_of_isBlank (h : isBlank c = true) : keepsBlanks c = true := by
  have hmarks : (['<', '>', ',', '['].filter isBlank) = [] := by decide
  rw [keepsBlanks, Bool.not_eq_true', ← Bool.not_eq_true, List.contains_iff_mem]
  intro hmem
  exact List.not_mem_nil (hmarks ▸ List.mem_filter.2 ⟨hmem, h⟩)

theorem isBlank_of_mark (h : keepsBlanks c = false) : isBlank c = false := by
  by_contra hblank
  rw [keepsBlanks_of_isBlank (Bool.of_not_eq_false hblank)] at h
  cases h

section Words

variable {ws : List (List Char)}

theorem flatMap_squeeze_words (s : List Char) : (words s).flatMap squeeze = squeeze s := by
  induction s using runs_induction (!isBlank ·) with
  | run r hr =>
    rw [words_eq_of_not_blank fun c hc => by simpa using hr c hc]
    split_ifs with hnil
    · rw [hnil]
      rfl
    · exact List.flatMap_singleton ..
  | cut r c s hr hc ih =>
    have hblank : isBlank c = true := by simpa using hc
    have hcut : squeeze (c :: s) = squeeze s := List.filter_cons_of_neg (by simp [hblank])
    rw [words_append_cons hblank, List.flatMap_append, ih,
      words_eq_of_not_blank fun c hc => by simpa using hr c hc, squeeze_append, hcut]
    split_ifs with hnil
    · rw [hnil]
      rfl
    · rw [List.flatMap_singleton]

theorem squeeze_spaces (ws : List (List Char)) :
    squeeze (List.intercalate [' '] ws) = ws.flatMap squeeze := by
  induction ws with
  | nil => rfl
  | cons w ws ih =>
    cases ws with
    | nil => simp
    | cons v ws =>
      have hspace : squeeze [' '] = [] := by decide
      rw [List.intercalate_cons_cons, squeeze_append, squeeze_append, ih, hspace,
        List.append_nil]
      rfl

theorem mem_of_mem_spaces (h : c ∈ List.intercalate [' '] ws) : c = ' ' ∨ ∃ w ∈ ws, c ∈ w := by
  induction ws with
  | nil => cases h
  | cons w ws ih =>
    cases ws with
    | nil => exact .inr ⟨w, List.mem_cons_self, by simpa using h⟩
    | cons v ws =>
      rw [List.intercalate_cons_cons, List.mem_append, List.mem_append, List.mem_singleton] at h
      rcases h with (h | h) | h
      · exact .inr ⟨w, List.mem_cons_self, h⟩
      · exact .inl h
      · exact (ih h).imp_right fun ⟨u, hu, hc⟩ => ⟨u, List.mem_cons_of_mem _ hu, hc⟩

theorem trim_spaces (h : ∀ w ∈ ws, IsWord w) :
    trim (List.intercalate [' '] ws) = List.intercalate [' '] ws := by
  apply trim_eq_self
  · cases ws with
    | nil => nofun
    | cons w ws =>
      have hw := h w List.mem_cons_self
      have hfront : w <+: List.intercalate [' '] (w :: ws) := by
        cases ws with
        | nil => simp
        | cons v ws =>
          rw [List.intercalate_cons_cons, List.append_assoc]
          exact List.prefix_append _ _
      obtain ⟨rest, hrest⟩ := hfront
      rw [← hrest, List.head?_append_of_ne_nil _ hw.1]
      exact fun c hc => hw.2 c (List.mem_of_head? hc)
  · induction ws with
    | nil => nofun
    | cons w ws ih =>
      cases ws with
      | nil =>
        rw [List.intercalate_singleton]
        exact fun c hc => (h w List.mem_cons_self).2 c (List.mem_of_getLast? hc)
      | cons v ws =>
        have hne : List.intercalate [' '] (v :: ws) ≠ [] := by
          intro hnil
          have hv := h v (List.mem_cons_of_mem _ List.mem_cons_self)
          cases ws with
          | nil => exact hv.1 (by simpa using hnil)
          | cons u ws => simp [List.intercalate_cons_cons] at hnil
        rw [List.intercalate_cons_cons, List.getLast?_append_of_ne_nil _ hne]
        exact ih fun u hu => h u (List.mem_cons_of_mem _ hu)

theorem singleSpaced_of_visible (h : ∀ c ∈ s, isBlank c = false) : singleSpaced s = s := by
  rw [singleSpaced, words_eq_of_not_blank h]
  split_ifs with hs
  · rw [hs]
    rfl
  · exact List.intercalate_singleton

theorem isRun_singleSpaced (h : IsRun keepsBlanks s) : IsRun keepsBlanks (singleSpaced s) := by
  intro c hc
  rcases mem_of_mem_spaces hc with rfl | ⟨w, hw, hc⟩
  · rfl
  · exact h c ((of_mem_words hw).2.subset hc)

end Words

section Tightened

theorem tightened_cut (hc : keepsBlanks c = false) (x y : List Char) :
    tightened (x ++ c :: y) = tightened x ++ c :: tightened y := mapRuns_cut hc x y

theorem tightened_run (h : IsRun keepsBlanks s) : tightened s = singleSpaced s := mapRuns_run h

@[simp] theorem tightened_nil : tightened [] = [] := rfl

theorem isRun_of_blank (h : Blank w) : IsRun keepsBlanks w :=
  fun c hc => keepsBlanks_of_isBlank (h c hc)

theorem tightened_blank_append (h : Blank w) (s : List Char) :
    tightened (w ++ s) = tightened s := by
  have hrun := isRun_of_blank h
  have honly : ∀ r, IsRun keepsBlanks r → tightened (w ++ r) = tightened r := by
    intro r hr
    rw [tightened_run (isRun_append.2 ⟨hrun, hr⟩), tightened_run hr, singleSpaced,
      words_blank_append h, singleSpaced]
  induction s using runs_induction keepsBlanks with
  | run r hr => exact honly r hr
  | cut r c s hr hc ih => rw [← List.append_assoc, tightened_cut hc, tightened_cut hc, honly r hr]

theorem tightened_append_blank (h : Blank w) (s : List Char) :
    tightened (s ++ w) = tightened s := by
  induction s using runs_induction keepsBlanks with
  | run r hr =>
    rw [tightened_run (isRun_append.2 ⟨hr, isRun_of_blank h⟩), tightened_run hr, singleSpaced,
      words_append_blank h, singleSpaced]
  | cut r c s hr hc ih =>
    rw [List.append_assoc, List.cons_append, tightened_cut hc, tightened_cut hc, ih]

theorem tightened_trim (s : List Char) : tightened (trim s) = tightened s := by
  obtain ⟨l, r, hl, hr, hs⟩ := exists_trim s
  conv_rhs => rw [hs, tightened_append_blank hr, tightened_blank_append hl]

theorem squeeze_tightened (s : List Char) : squeeze (tightened s) = squeeze s := by
  induction s using runs_induction keepsBlanks with
  | run r hr => rw [tightened_run hr, singleSpaced, squeeze_spaces, flatMap_squeeze_words]
  | cut r c s hr hc ih =>
    have hvisible : isBlank c = false := isBlank_of_mark hc
    rw [tightened_cut hc, squeeze_append, squeeze_append, tightened_run hr, singleSpaced,
      squeeze_spaces, flatMap_squeeze_words]
    simp only [squeeze, List.filter_cons, hvisible, Bool.not_false, if_true] at ih ⊢
    rw [ih]

theorem trim_tightened (s : List Char) : trim (tightened s) = tightened s := by
  have hrun : ∀ r, IsRun keepsBlanks r → trim (tightened r) = tightened r := by
    intro r hr
    rw [tightened_run hr, singleSpaced, trim_spaces fun w hw => (of_mem_words hw).1]
  induction s using runs_induction keepsBlanks with
  | run r hr => exact hrun r hr
  | cut r c s hr hc ih =>
    have hvisible := isBlank_of_mark hc
    rw [tightened_cut hc]
    apply trim_eq_self
    · intro d hd
      cases hr' : tightened r with
      | nil =>
        rw [hr'] at hd
        obtain rfl := Option.some.inj hd
        exact hvisible
      | cons e rest =>
        apply head?_trim (s := tightened r)
        rw [hrun r hr, hr']
        rw [hr'] at hd
        exact hd
    · intro d hd
      rw [List.getLast?_append_of_ne_nil _ (List.cons_ne_nil _ _), List.getLast?_cons] at hd
      cases hs : (tightened s).getLast? with
      | none =>
        rw [hs] at hd
        obtain rfl := Option.some.inj hd
        exact hvisible
      | some e =>
        rw [hs] at hd
        obtain rfl := Option.some.inj hd
        exact getLast?_trim (s := tightened s) (by rw [ih, hs]; rfl)

theorem tightened_of_visible (h : ∀ c ∈ s, isBlank c = false) : tightened s = s := by
  induction s using runs_induction keepsBlanks with
  | run r hr => rw [tightened_run hr, singleSpaced_of_visible h]
  | cut r c s hr hc ih =>
    rw [List.forall_mem_append, List.forall_mem_cons] at h
    rw [tightened_cut hc, tightened_run hr, singleSpaced_of_visible h.1, ih h.2.2]

theorem mem_tightened_iff (hc : isBlank c = false) : c ∈ tightened s ↔ c ∈ s := by
  have hmem : ∀ t : List Char, c ∈ squeeze t ↔ c ∈ t := fun t => by simp [squeeze, hc]
  rw [← hmem, squeeze_tightened, hmem]

theorem count_tightened (hc : isBlank c = false) : (tightened s).count c = s.count c := by
  have hcount : ∀ t : List Char, (squeeze t).count c = t.count c :=
    fun t => List.count_filter (by simp [hc])
  rw [← hcount, squeeze_tightened, hcount]

theorem blank_tightened_iff : Blank (tightened s) ↔ Blank s := by
  rw [← squeeze_eq_nil_iff, squeeze_tightened, squeeze_eq_nil_iff]

theorem tightened_intercalate (ss : List (List Char)) :
    tightened (List.intercalate [','] ss) = List.intercalate [','] (ss.map tightened) := by
  induction ss with
  | nil => rfl
  | cons s ss ih =>
    cases ss with
    | nil => simp
    | cons t ss =>
      rw [List.intercalate_cons_cons, List.append_assoc, List.singleton_append,
        tightened_cut (by decide), ih]
      simp only [List.map_cons, List.intercalate_cons_cons, List.append_assoc,
        List.singleton_append]

end Tightened

end Text

open Text

namespace TypeExpr

/-- A text as it is without such blanks. -/
def tightText (s : String) : String := .ofList (tightened s.toList)

theorem isPlain_tightened {s : List Char} : IsPlain (tightened s) ↔ IsPlain s := by
  have hopen : isBlank '<' = false := by decide
  have hclose : isBlank '>' = false := by decide
  rw [IsPlain, IsPlain, mem_tightened_iff hopen, mem_tightened_iff hclose]

theorem EnclosesCommas.tightened {s : List Char} (h : EnclosesCommas 0 s) :
    EnclosesCommas 0 (tightened s) := by
  intro before after hcut
  have hopen : isBlank '<' = false := by decide
  have hclose : isBlank '>' = false := by decide
  obtain ⟨x, y, rfl, rfl, -⟩ := exists_cut (fun _ => isRun_singleSpaced) hcut (by decide)
  have hcount := h x y rfl
  rwa [← count_tightened hopen, ← count_tightened hclose] at hcount

theorem IsDivision.tightened {text base : List Char} {args : List (List Char)}
    (h : IsDivision text base args) :
    IsDivision (tightened text) (tightened base) (args.map tightened) where
  shape := by
    rw [h.shape, tightened_cut (by decide), tightened_cut (by decide), tightened_intercalate,
      tightened_nil]
  plain := isPlain_tightened.2 h.plain
  named := by
    rw [blank_tightened_iff]
    exact h.named
  args_ne := by simpa using h.args_ne
  visible := List.forall_mem_map.2 fun a ha => mt blank_tightened_iff.1 (h.visible a ha)
  enclosed := List.forall_mem_map.2 fun a ha => (h.enclosed a ha).tightened

theorem Denotes.tightened {s : List Char} {t : TypeExpr} (h : Denotes s t) :
    Denotes (tightened s) (t.mapBases tightText) := by
  have htext : ∀ b : List Char,
      tightText (.ofList (trim b)) = .ofList (trim (Text.tightened b)) := by
    intro b
    rw [tightText, String.toList_ofList, tightened_trim, trim_tightened]
  induction h with
  | @leaf s plain =>
    rw [TypeExpr.leaf, mapBases_node, htext]
    apply Denotes.leaf
    rwa [trim_tightened, isPlain_tightened, ← isPlain_trim]
  | @node s base parts division args ih =>
    let parts' := parts.map fun p => (Text.tightened p.1, p.2.mapBases tightText)
    have hfst : parts'.map Prod.fst = (parts.map Prod.fst).map Text.tightened := by
      simp [parts', Function.comp_def]
    have hsnd : parts'.map Prod.snd = (parts.map Prod.snd).map (·.mapBases tightText) := by
      simp [parts', Function.comp_def]
    have hdivision : IsDivision (trim (Text.tightened s)) (Text.tightened base)
        (parts'.map Prod.fst) := by
      rw [trim_tightened, ← tightened_trim, hfst]
      exact division.tightened
    rw [mapBases_node, htext, ← hsnd]
    exact .node hdivision (List.forall_mem_map.2 ih)

theorem mapBases_tightText {s s' : String} {t t' : TypeExpr} (hs : parse s = .ok t)
    (hs' : parse s' = .ok t') (h : tightText s = tightText s') :
    t.mapBases tightText = t'.mapBases tightText := by
  have hread := parse_of_denotes (denotes_of_parse hs).tightened
  have hread' := parse_of_denotes (denotes_of_parse hs').tightened
  rw [String.ofList_injective h, hread'] at hread
  exact (Except.ok.inj hread).symm

end TypeExpr

end StagedBuilder
