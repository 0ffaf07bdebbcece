import Mathlib.Data.List.Chain
import StagedBuilder.Proofs.LayoutLaws
import StagedBuilder.Proofs.LineEnds
import StagedBuilder.Proofs.PassageLaws

namespace StagedBuilder

open Text

namespace Text

variable {s t : List Char} {c : Char}

def Unclosed (s : List Char) : Prop := s.IsChain fun c d => ¬(c = '*' ∧ d = '/')

def OneLine (s : List Char) : Prop := ∀ c ∈ s, isBlank c = true → c = ' '

instance (s : List Char) : Decidable (Unclosed s) := inferInstanceAs (Decidable (s.IsChain _))

instance (s : List Char) : Decidable (OneLine s) := List.decidableBAll _ s

section Unclosed

theorem Unclosed.append (hs : Unclosed s) (ht : Unclosed t)
    (h : s.getLast? ≠ some '*' ∨ t.head? ≠ some '/') : Unclosed (s ++ t) := by
  refine List.isChain_append.2 ⟨hs, ht, ?_⟩
  rintro x hx y hy ⟨rfl, rfl⟩
  rcases h with h | h
  · exact h hx
  · exact h hy

theorem unclosed_of_not_mem (h : '*' ∉ s) : Unclosed s := by
  induction s with
  | nil => exact List.isChain_nil
  | cons c s ih =>
    rw [List.mem_cons, not_or] at h
    exact List.isChain_cons.2 ⟨fun d _ hpair => h.1 hpair.1.symm, ih h.2⟩

theorem Unclosed.intercalate {ws : List String} (h : ∀ w ∈ ws, Unclosed w.toList) :
    Unclosed (" ".intercalate ws).toList := by
  induction ws with
  | nil => exact List.isChain_nil
  | cons w ws ih =>
    obtain ⟨hw, hws⟩ := List.forall_mem_cons.1 h
    cases ws with
    | nil =>
      rw [String.intercalate_singleton]
      exact hw
    | cons v ws =>
      have hspace : Unclosed [' '] := List.isChain_singleton _
      have hrest : Unclosed ([' '] ++ (" ".intercalate (v :: ws)).toList) :=
        hspace.append (ih hws) (.inl (by decide))
      rw [toList_spaced]
      exact hw.append hrest (.inr (by simp))

theorem Unclosed.ne (h : Unclosed s) (before after : List Char) :
    s ≠ before ++ '*' :: '/' :: after := by
  rintro rfl
  exact (List.isChain_append_cons_cons.1 h).2.1 ⟨rfl, rfl⟩

theorem Unclosed.eq_of_closed {before after rest : List Char} (hs : Unclosed s)
    (hrest : Unclosed ('/' :: rest)) (h : s ++ '*' :: '/' :: rest = before ++ '*' :: '/' :: after) :
    after = rest := by
  rcases List.append_eq_append_iff.1 h with ⟨mid, -, hmid⟩ | ⟨mid, hs', hmid⟩
  · cases mid with
    | nil => exact (List.cons.inj (List.cons.inj hmid).2).2.symm
    | cons c mid => exact absurd (List.cons.inj hmid).2 (hrest.ne mid after)
  · cases mid with
    | nil => exact (List.cons.inj (List.cons.inj hmid).2).2
    | cons c mid =>
      obtain ⟨hc, hmid⟩ := List.cons.inj hmid
      cases mid with
      | nil => exact absurd (List.cons.inj hmid).1 (by decide)
      | cons d mid =>
        rw [← hc, ← (List.cons.inj hmid).1] at hs'
        exact absurd hs' (hs.ne before mid)

end Unclosed

section Guarded

def guarded (s : List Char) : List Char := replace "*/".toList "*&#47;".toList s

theorem guarded_closing (s : List Char) :
    guarded ("*/".toList ++ s) = "*&#47;".toList ++ guarded s := replace_append (by decide) _ s

theorem guarded_cons (h : ¬"*/".toList <+: c :: s) : guarded (c :: s) = c :: guarded s :=
  replace_cons h

/-- Texts as they are read when the ends of comments are replaced. -/
theorem closing_induction {motive : List Char → Prop} (nil : motive [])
    (closing : ∀ s, motive s → motive ("*/".toList ++ s))
    (cons : ∀ c s, ¬"*/".toList <+: c :: s → motive s → motive (c :: s)) (s : List Char) :
    motive s := by
  induction hn : s.length using Nat.strong_induction_on generalizing s with
  | h n ih =>
    by_cases hclosing : "*/".toList <+: s
    · obtain ⟨t, rfl⟩ := hclosing
      refine closing t (ih t.length ?_ t rfl)
      rw [← hn, List.length_append]
      exact Nat.lt_add_of_pos_left (by decide)
    · cases s with
      | nil => exact nil
      | cons c s =>
        refine cons c s hclosing (ih s.length ?_ s rfl)
        rw [← hn]
        exact Nat.lt_succ_self _

theorem head?_guarded (s : List Char) : (guarded s).head? = s.head? := by
  induction s using closing_induction with
  | nil => rfl
  | closing s => rw [guarded_closing]; rfl
  | cons c s h => rw [guarded_cons h]; rfl

theorem unclosed_guarded (s : List Char) : Unclosed (guarded s) := by
  induction s using closing_induction with
  | nil => exact List.isChain_nil
  | closing s ih =>
    rw [guarded_closing]
    exact Unclosed.append (by decide) ih (.inl (by decide))
  | cons c s h ih =>
    rw [guarded_cons h]
    refine List.isChain_cons.2 ⟨?_, ih⟩
    rintro d hd ⟨rfl, rfl⟩
    rw [head?_guarded, Option.mem_def, List.head?_eq_some_iff] at hd
    obtain ⟨rest, rfl⟩ := hd
    exact h ⟨rest, rfl⟩

theorem not_closing_of_blank (hc : isBlank c = true) (s : List Char) : ¬"*/".toList <+: c :: s := by
  intro h
  obtain ⟨rfl, -⟩ := List.cons_prefix_cons.1 h
  exact absurd hc (by decide)

theorem guarded_blank_append (h : Blank t) (s : List Char) : guarded (t ++ s) = t ++ guarded s := by
  induction t with
  | nil => rfl
  | cons c t ih =>
    obtain ⟨hc, ht⟩ := blank_cons.1 h
    rw [List.cons_append, guarded_cons (not_closing_of_blank hc _), ih ht, List.cons_append]

theorem guarded_append_blank (h : Blank t) (s : List Char) : guarded (s ++ t) = guarded s ++ t := by
  induction s using closing_induction with
  | nil =>
    have hblank := guarded_blank_append h []
    rwa [List.append_nil, show guarded [] = [] from rfl, List.append_nil] at hblank
  | closing s ih => rw [List.append_assoc, guarded_closing, ih, guarded_closing, List.append_assoc]
  | cons c s hclosing ih =>
    -- no blank is a slash, so the blanks do not complete an end that `c` begins
    have hlater : ¬"*/".toList <+: c :: (s ++ t) := by
      intro hprefix
      obtain ⟨rfl, hslash⟩ := List.cons_prefix_cons.1 hprefix
      cases s with
      | nil =>
        obtain ⟨rest, rfl⟩ := hslash
        exact h.not_mem (by decide) List.mem_cons_self
      | cons d s =>
        obtain ⟨rfl, -⟩ := List.cons_prefix_cons.1 hslash
        exact hclosing ⟨s, rfl⟩
    rw [List.cons_append, guarded_cons hlater, ih, guarded_cons hclosing, List.cons_append]

theorem words_guarded_trim (s : List Char) : words (guarded (trim s)) = words (guarded s) := by
  obtain ⟨l, r, hl, hr, hs⟩ := exists_trim s
  conv_rhs => rw [hs, guarded_append_blank hr, guarded_blank_append hl, words_append_blank hr,
    words_blank_append hl]

end Guarded

section Lines

theorem OneLine.append (hs : OneLine s) (ht : OneLine t) : OneLine (s ++ t) :=
  List.forall_mem_append.2 ⟨hs, ht⟩

theorem OneLine.not_mem (h : OneLine s) (hblank : isBlank c = true) (hc : c ≠ ' ') : c ∉ s :=
  fun hmem => hc (h c hmem hblank)

theorem oneLine_of_visible (h : ∀ c ∈ s, isBlank c = false) : OneLine s :=
  fun c hc hblank => absurd hblank (by simp [h c hc])

theorem OneLine.intercalate {ws : List String} (h : ∀ w ∈ ws, OneLine w.toList) :
    OneLine (" ".intercalate ws).toList := by
  induction ws with
  | nil => exact List.forall_mem_nil _
  | cons w ws ih =>
    obtain ⟨hw, hws⟩ := List.forall_mem_cons.1 h
    cases ws with
    | nil =>
      rw [String.intercalate_singleton]
      exact hw
    | cons v ws =>
      rw [toList_spaced]
      exact hw.append (List.forall_mem_cons.2 ⟨fun _ => rfl, ih hws⟩)

theorem dropTrailing_of_oneLine (h : OneLine s) : dropTrailing '\r' s = s := by
  have hlast : s.getLast? ≠ some '\r' :=
    fun hlast => h.not_mem (by decide) (by decide) (List.mem_of_getLast? hlast)
  rw [dropTrailing, if_neg hlast]

theorem lines_flatMap {ls : List (List Char)} (h : ∀ l ∈ ls, OneLine l) :
    lines (ls.flatMap (· ++ ['\n'])) = ls := by
  induction ls with
  | nil => rfl
  | cons l ls ih =>
    obtain ⟨hl, hls⟩ := List.forall_mem_cons.1 h
    have hfeed : '\n' ∉ l := hl.not_mem (by decide) (by decide)
    rw [List.flatMap_cons, List.append_assoc, List.singleton_append, lines_line hfeed,
      dropTrailing_of_oneLine hl, ih hls]

end Lines

end Text

namespace Sheet

def spaced (depth : Nat) (l : String) : List Char := .replicate (depth * step) ' ' ++ l.toList

def indented (depth : Nat) : List String → List (List Char)
  | [] => []
  | l :: ls => spaced depth l :: indented (depth + opened l) ls

def openedBy : List String → Nat
  | [] => 0
  | l :: ls => opened l + openedBy ls

theorem laid_line (depth : Nat) (l : String) (ls : List String) :
    laid depth (.line l :: ls.map .line) =
      (laid (depth + opened l) (ls.map .line)).under
        (.ofList (.replicate (depth * step) ' ') ++ l ++ "\n") := by
  have hfirst : laid depth [.line l] =
      ⟨depth + opened l, .ofList (.replicate (depth * step) ' ') ++ l ++ "\n"⟩ := by
    have hdepth : (laid depth [.line l]).depth = depth + opened l := depth_line l
    have htext : (laid depth [.line l]).text =
        .ofList (.replicate (depth * step) ' ') ++ l ++ "\n" := by
      rw [← String.empty_append (s := .ofList _)]
      rfl
    rw [← hdepth, ← htext]
  rw [← List.singleton_append, laid_append, hfirst]

theorem depth_laid_lines (depth : Nat) (ls : List String) :
    (laid depth (ls.map .line)).depth = depth + openedBy ls := by
  induction ls generalizing depth with
  | nil => rfl
  | cons l ls ih =>
    rw [List.map_cons, laid_line, openedBy, ← Nat.add_assoc]
    exact ih _

theorem text_laid_lines (depth : Nat) (ls : List String) :
    (laid depth (ls.map .line)).text.toList = (indented depth ls).flatMap (· ++ ['\n']) := by
  induction ls generalizing depth with
  | nil => rfl
  | cons l ls ih =>
    rw [List.map_cons, laid_line, under, String.toList_append, ih, indented, List.flatMap_cons,
      String.toList_append, String.toList_append, String.toList_ofList]
    rfl

theorem indented_append (depth : Nat) (ls ls' : List String) :
    indented depth (ls ++ ls') = indented depth ls ++ indented (depth + openedBy ls) ls' := by
  induction ls generalizing depth with
  | nil => rfl
  | cons l ls ih =>
    rw [List.cons_append, indented, indented, ih, List.cons_append, openedBy, Nat.add_assoc]

end Sheet

def Indents (content line : List Char) : Prop := ∃ n, line = .replicate n ' ' ++ content

theorem Sheet.indents_spaced (depth : Nat) (l : String) : Indents l.toList (spaced depth l) :=
  ⟨_, rfl⟩

theorem Sheet.exists_of_mem_indented {depth : Nat} {ls : List String} {line : List Char}
    (h : line ∈ indented depth ls) : ∃ l ∈ ls, Indents l.toList line := by
  induction ls generalizing depth with
  | nil => cases h
  | cons l ls ih =>
    rw [indented, List.mem_cons] at h
    rcases h with rfl | h
    · exact ⟨l, List.mem_cons_self, indents_spaced depth l⟩
    · obtain ⟨l', hl', hindents⟩ := ih h
      exact ⟨l', List.mem_cons_of_mem _ hl', hindents⟩

section Indents

variable {content line : List Char}

theorem mem_spaces {n : Nat} {c : Char} (h : c ∈ List.replicate n ' ') : c = ' ' :=
  List.eq_of_mem_replicate h

theorem blank_spaces (n : Nat) : Blank (.replicate n ' ') := fun _ h => mem_spaces h ▸ by decide

theorem Indents.oneLine (h : Indents content line) (hcontent : OneLine content) :
    OneLine line := by
  obtain ⟨n, rfl⟩ := h
  exact OneLine.append (fun c hc _ => mem_spaces hc) hcontent

theorem unclosed_spaces_append (n : Nat) (hcontent : Unclosed content) :
    Unclosed (.replicate n ' ' ++ content) := by
  refine Unclosed.append (unclosed_of_not_mem ?_) hcontent (.inl ?_)
  · exact fun hstar => absurd (mem_spaces hstar) (by decide)
  · exact fun hlast => absurd (mem_spaces (List.mem_of_getLast? hlast)) (by decide)

theorem unclosed_flatMap {ls : List (List Char)} (h : ∀ l ∈ ls, Unclosed l) :
    Unclosed (ls.flatMap (· ++ ['\n'])) := by
  induction ls with
  | nil => exact List.isChain_nil
  | cons l ls ih =>
    obtain ⟨hl, hls⟩ := List.forall_mem_cons.1 h
    have hline : Unclosed (l ++ ['\n']) :=
      hl.append (List.isChain_singleton _) (.inr (by simp))
    exact hline.append (ih hls) (.inl (by simp))

def starless (line : List Char) : List Char := (trimStart line).drop 1

theorem words_starless {l : String} (h : Indents (" * " ++ l).toList line) :
    words (starless line) = words l.toList := by
  obtain ⟨n, rfl⟩ := h
  have hline : starless (.replicate n ' ' ++ (" * " ++ l).toList) = [' '] ++ l.toList := by
    have hspaces : Blank (List.replicate n ' ' ++ [' ']) :=
      blank_append.2 ⟨blank_spaces n, by decide⟩
    have hsplit : List.replicate n ' ' ++ (" * " ++ l).toList =
        (List.replicate n ' ' ++ [' ']) ++ '*' :: ' ' :: l.toList := by
      rw [String.toList_append, List.append_assoc]
      rfl
    rw [hsplit, starless, trimStart_append_of_blank hspaces]
    rfl
  rw [hline, words_blank_append (by decide)]

theorem flatMap_words_starless (depth : Nat) (ls : List String) :
    (Sheet.indented depth (ls.map (" * " ++ ·))).flatMap (fun line => words (starless line)) =
      ls.flatMap (words ·.toList) := by
  induction ls generalizing depth with
  | nil => rfl
  | cons l ls ih =>
    rw [List.map_cons, Sheet.indented, List.flatMap_cons, List.flatMap_cons, ih,
      words_starless (Sheet.indents_spaced depth (" * " ++ l))]

end Indents

/--
The text is a comment: a first line, description and tags whose lines are led in by stars, with a
bare star between them, and a last line. It ends where its last line ends and nowhere before.
-/
structure IsComment (text : String) (description : List (List Char)) : Prop where
  lines : ∃ first gap tags last,
    lines text.toList = first :: (description ++ gap :: tags) ++ [last] ∧
      Indents "/**".toList first ∧ Indents " *".toList gap ∧ Indents " */".toList last ∧
      ∀ line ∈ description ++ gap :: tags, ∃ rest, Indents (" *".toList ++ rest) line
  described : ∀ line ∈ description, words (starless line) ≠ []
  ended : ∃ before, text.toList = before ++ "*/\n".toList
  once : ∀ before after, text.toList = before ++ "*/".toList ++ after → after = "\n".toList

namespace Java.Doc

def description (d : Doc) : List String := (wrap width d.text).map (" * " ++ ·)

def tags (d : Doc) : List String :=
  [" * @param " ++ d.param ++ " the value to set", " * @return " ++ d.returns]

def inner (d : Doc) : List String := "/**" :: (d.description ++ " *" :: d.tags)

theorem marks_eq (d : Doc) : d.marks = (d.inner ++ [" */"]).map .line := by
  simp [marks, inner, description, tags]

theorem words_description (d : Doc) (depth : Nat) :
    (Sheet.indented depth d.description).flatMap (fun line => words (starless line)) =
      words d.text.toList := by
  rw [description, flatMap_words_starless, words_wrap]

theorem words_starless_ne_nil {d : Doc} {depth : Nat} {line : List Char}
    (h : line ∈ Sheet.indented depth d.description) : words (starless line) ≠ [] := by
  obtain ⟨l, hl, hindents⟩ := Sheet.exists_of_mem_indented h
  obtain ⟨content, hcontent, rfl⟩ := List.mem_map.1 hl
  obtain ⟨ws, hne, rfl, hws⟩ := exists_of_mem_wrap hcontent
  rw [words_starless hindents, words_intercalate fun w hw => (hws w hw).1]
  exact mt List.map_eq_nil_iff.1 hne

theorem starred {d : Doc} {l : String} {line : List Char}
    (hl : l ∈ d.description ++ " *" :: d.tags) (hline : Indents l.toList line) :
    ∃ rest, Indents (" *".toList ++ rest) line := by
  have hprefix : " *".toList <+: l.toList := by
    rw [List.mem_append, List.mem_cons, tags, List.mem_cons, List.mem_singleton] at hl
    rcases hl with hl | rfl | rfl | rfl
    · obtain ⟨content, -, rfl⟩ := List.mem_map.1 hl
      rw [String.toList_append]
      exact List.IsPrefix.trans (by decide) (List.prefix_append _ _)
    · exact List.prefix_rfl
    · simp only [String.toList_append, List.append_assoc]
      exact List.IsPrefix.trans (by decide) (List.prefix_append _ _)
    · rw [String.toList_append]
      exact List.IsPrefix.trans (by decide) (List.prefix_append _ _)
  obtain ⟨rest, hrest⟩ := hprefix
  exact ⟨rest, hrest ▸ hline⟩

structure Contained (d : Doc) : Prop where
  text : Unclosed d.text.toList
  param : OneLine d.param.toList
  open_param : '*' ∉ d.param.toList
  returns : OneLine d.returns.toList
  open_returns : '*' ∉ d.returns.toList

section Contained

variable {d : Doc} (hd : d.Contained)

include hd

theorem Contained.description {l : String} (hl : l ∈ d.description) :
    OneLine l.toList ∧ Unclosed l.toList := by
  obtain ⟨content, hcontent, rfl⟩ := List.mem_map.1 hl
  obtain ⟨ws, -, rfl, hws⟩ := exists_of_mem_wrap hcontent
  rw [String.toList_append]
  constructor
  · refine OneLine.append (by decide) (.intercalate fun w hw => ?_)
    exact oneLine_of_visible (hws w hw).1.2
  · refine Unclosed.append (by decide) (.intercalate fun w hw => ?_) (.inl (by decide))
    exact hd.text.infix (of_mem_words (hws w hw).2).2

theorem Contained.tags {l : String} (hl : l ∈ d.tags) :
    OneLine l.toList ∧ Unclosed l.toList := by
  rw [Doc.tags, List.mem_cons, List.mem_singleton] at hl
  rcases hl with rfl | rfl
  · simp only [String.toList_append]
    constructor
    · exact (OneLine.append (by decide) hd.param).append (by decide)
    · refine (Unclosed.append (by decide) (unclosed_of_not_mem hd.open_param)
        (.inl (by decide))).append (by decide) (.inr (by decide))
  · rw [String.toList_append]
    constructor
    · exact OneLine.append (by decide) hd.returns
    · exact Unclosed.append (by decide) (unclosed_of_not_mem hd.open_returns) (.inl (by decide))

theorem Contained.inner {l : String} (hl : l ∈ d.inner) :
    OneLine l.toList ∧ Unclosed l.toList := by
  rw [Doc.inner, List.mem_cons, List.mem_append, List.mem_cons] at hl
  rcases hl with rfl | hl | rfl | hl
  · decide
  · exact hd.description hl
  · decide
  · exact hd.tags hl

theorem Contained.lines_laid (depth : Nat) :
    lines (Sheet.laid depth d.marks).text.toList = Sheet.indented depth (d.inner ++ [" */"]) := by
  rw [marks_eq, Sheet.text_laid_lines]
  apply lines_flatMap
  intro line hline
  obtain ⟨l, hl, hindents⟩ := Sheet.exists_of_mem_indented hline
  rw [List.mem_append, List.mem_singleton] at hl
  rcases hl with hl | rfl
  · exact hindents.oneLine (hd.inner hl).1
  · exact hindents.oneLine (by decide)

omit hd in
theorem flatMap_spaced_end (depth : Nat) :
    (Sheet.indented depth [" */"]).flatMap (· ++ ['\n']) =
      (.replicate (depth * Sheet.step) ' ' ++ [' ']) ++ "*/\n".toList := by
  have hend : " */".toList ++ ['\n'] = [' '] ++ "*/\n".toList := by decide
  rw [Sheet.indented, Sheet.indented, List.flatMap_singleton, Sheet.spaced, List.append_assoc,
    hend, List.append_assoc]

theorem Contained.exists_before (depth : Nat) :
    ∃ before, Unclosed before ∧
      (Sheet.laid depth d.marks).text.toList = before ++ "*/\n".toList := by
  have hunclosed : ∀ line ∈ Sheet.indented depth d.inner, Unclosed line := by
    intro line hline
    obtain ⟨l, hl, n, rfl⟩ := Sheet.exists_of_mem_indented hline
    exact unclosed_spaces_append n (hd.inner hl).2
  have hlast (n : Nat) : Unclosed (List.replicate n ' ' ++ [' ']) :=
    unclosed_spaces_append n (List.isChain_singleton _)
  have hhead (n : Nat) : (List.replicate n ' ' ++ [' ']).head? ≠ some '/' := by
    cases n with
    | zero => decide
    | succ n => simp [List.replicate_succ]
  rw [marks_eq, Sheet.text_laid_lines, Sheet.indented_append, List.flatMap_append,
    flatMap_spaced_end, ← List.append_assoc]
  exact ⟨_, (unclosed_flatMap hunclosed).append (hlast _) (.inr (hhead _)), rfl⟩

omit hd in
theorem exists_indented_inner (d : Doc) (depth : Nat) :
    ∃ within gap tags last : Nat,
      Sheet.indented depth (d.inner ++ [" */"]) =
        Sheet.spaced depth "/**" ::
          (Sheet.indented within d.description ++
            Sheet.spaced gap " *" :: Sheet.indented tags d.tags) ++
          [Sheet.spaced last " */"] := by
  let within := depth + Sheet.opened "/**"
  let gap := within + Sheet.openedBy d.description
  refine ⟨within, gap, gap + Sheet.opened " *", depth + Sheet.openedBy d.inner, ?_⟩
  rw [Sheet.indented_append, inner, Sheet.indented, Sheet.indented_append, Sheet.indented]
  rfl

theorem Contained.exists_isComment (depth : Nat) :
    ∃ description, IsComment (Sheet.laid depth d.marks).text description ∧
      description.flatMap (fun line => words (starless line)) = words d.text.toList := by
  obtain ⟨within, gap, tags, last, hlines⟩ := d.exists_indented_inner depth
  obtain ⟨before, hbefore, htext⟩ := hd.exists_before depth
  refine ⟨Sheet.indented within d.description, ⟨?_, ?_, ⟨before, htext⟩, ?_⟩,
    d.words_description within⟩
  · refine ⟨_, _, _, _, (hd.lines_laid depth).trans hlines, Sheet.indents_spaced _ _,
      Sheet.indents_spaced _ _, Sheet.indents_spaced _ _, fun line hline => ?_⟩
    rw [List.mem_append, List.mem_cons] at hline
    rcases hline with hline | rfl | hline
    · obtain ⟨l, hl, hindents⟩ := Sheet.exists_of_mem_indented hline
      exact Doc.starred (List.mem_append_left _ hl) hindents
    · exact ⟨[], Sheet.indents_spaced _ _⟩
    · obtain ⟨l, hl, hindents⟩ := Sheet.exists_of_mem_indented hline
      exact Doc.starred (List.mem_append_right _ (List.mem_cons_of_mem _ hl)) hindents
  · exact fun line hline => words_starless_ne_nil hline
  · intro front after h
    have hend : before ++ '*' :: '/' :: ['\n'] = front ++ '*' :: '/' :: after := by
      rw [htext, List.append_assoc] at h
      exact h
    exact hbefore.eq_of_closed (by decide) hend

end Contained

end Java.Doc

end StagedBuilder
