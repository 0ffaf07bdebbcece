import StagedBuilder.Proofs.BracketLaws
import StagedBuilder.Proofs.TraversalLaws

namespace StagedBuilder.TypeExpr

open Text

/-- A base, and after it arguments in brackets and between commas. -/
structure IsDivision (text base : List Char) (args : List (List Char)) : Prop where
  shape : text = base ++ '<' :: (List.intercalate [','] args ++ ['>'])
  plain : IsPlain base
  named : ¬Blank base
  args_ne : args ≠ []
  visible : ∀ a ∈ args, ¬Blank a
  enclosed : ∀ a ∈ args, EnclosesCommas 0 a

inductive Denotes : List Char → TypeExpr → Prop
  | leaf {s : List Char} (plain : IsPlain (trim s)) : Denotes s (leaf (.ofList (trim s)))
  | node {s base : List Char} {parts : List (List Char × TypeExpr)}
      (division : IsDivision (trim s) base (parts.map Prod.fst))
      (args : ∀ p ∈ parts, Denotes p.1 p.2) :
      Denotes s (.node (.ofList (trim base)) (parts.map Prod.snd))

theorem takeWhile_open {base : List Char} (h : '<' ∉ base) (rest : List Char) :
    (base ++ '<' :: rest).takeWhile (· ≠ '<') = base ∧
      (base ++ '<' :: rest).dropWhile (· ≠ '<') = '<' :: rest := by
  have hbase : ∀ c ∈ base, decide (c ≠ '<') = true := by
    intro c hc
    rw [decide_eq_true_iff]
    rintro rfl
    exact h hc
  refine ⟨?_, ?_⟩
  · rw [List.takeWhile_append_of_pos hbase]
    simp
  · rw [List.dropWhile_append_of_pos hbase]
    simp

theorem dropWhile_closed {text : List Char} (h : '<' ∉ text) : text.dropWhile (· ≠ '<') = [] := by
  rw [List.dropWhile_eq_nil_iff]
  intro c hc
  rw [decide_eq_true_iff]
  rintro rfl
  exact h hc

theorem divide_plain {text : List Char} (h : IsPlain text) : divide text = .ok (text, []) := by
  have hb : bracketFault? 0 text = none := by
    simpa [bracketFault?] using bracketFault?_plain h 0 []
  rw [divide, hb, dropWhile_closed h.1]

theorem divide_brackets {base inner : List Char} (hplain : IsPlain base) (hnamed : ¬Blank base)
    (hinner : bracketFault? 0 inner = none) :
    divide (base ++ '<' :: (inner ++ ['>'])) = .ok (trim base, splitArguments 0 inner) := by
  have hb : bracketFault? 0 (base ++ '<' :: (inner ++ ['>'])) = none := by
    rw [bracketFault?_plain hplain, bracketFault?_cons (by decide)]
    exact bracketFault?_append hinner 1 ['>']
  obtain ⟨htake, hdrop⟩ := takeWhile_open hplain.1 (inner ++ ['>'])
  have hlast : (inner ++ ['>']).getLast? = some '>' := List.getLast?_concat
  rw [divide, hb, hdrop]
  dsimp only
  rw [htake, if_neg (not_not.2 hlast), if_neg (mt trim_eq_nil_iff.1 hnamed), List.dropLast_concat]

theorem balanced_of_divide {text base : List Char} {args : List (List Char)}
    (h : divide text = .ok (base, args)) : bracketFault? 0 text = none := by
  unfold divide at h
  split at h
  · cases h
  · assumption
  · assumption

theorem isPlain_of_no_open {before : List Char} (after : List Char)
    (hb : bracketFault? 0 (before ++ after) = none) (h : '<' ∉ before) : IsPlain before := by
  have := count_le_of_balanced hb
  rw [List.count_eq_zero_of_not_mem h] at this
  exact ⟨h, List.count_eq_zero.1 (by omega)⟩

theorem eq_of_divide {text base : List Char} {args : List (List Char)}
    (h : divide text = .ok (base, args)) :
    (IsPlain text ∧ base = text ∧ args = []) ∨
      ∃ b inner, text = b ++ '<' :: (inner ++ ['>']) ∧ IsPlain b ∧ ¬Blank b ∧ base = trim b ∧
        args = splitArguments 0 inner := by
  have hb := balanced_of_divide h
  unfold divide at h
  rw [hb] at h
  by_cases hopen : '<' ∈ text
  · obtain ⟨b, rest, rfl, hbefore⟩ := List.eq_append_cons_of_mem hopen
    obtain ⟨htake, hdrop⟩ := takeWhile_open hbefore rest
    rw [hdrop] at h
    dsimp only at h
    rw [htake] at h
    split_ifs at h with hlast hnamed
    obtain ⟨rfl, rfl⟩ := Prod.mk.inj (Except.ok.inj h)
    rw [not_not] at hlast
    refine .inr ⟨b, rest.dropLast, ?_, isPlain_of_no_open _ hb hbefore, mt trim_eq_nil_iff.2 hnamed,
      rfl, rfl⟩
    rw [List.dropLast_append_getLast? '>' hlast]
  · rw [dropWhile_closed hopen] at h
    obtain ⟨rfl, rfl⟩ := Prod.mk.inj (Except.ok.inj h)
    exact .inl ⟨isPlain_of_no_open [] (by simpa using hb) hopen, rfl, rfl⟩

def parseArgument (text a : List Char) : Except MalformedType TypeExpr :=
  if trim a = [] then .error ⟨.ofList text, .emptyArgument⟩ else parseChars a

theorem parseArgument_eq_ok_iff (text : List Char) {a : List Char} {t : TypeExpr} :
    parseArgument text a = .ok t ↔ ¬Blank a ∧ parseChars a = .ok t := by
  rw [parseArgument, ← trim_eq_nil_iff]
  split_ifs with ha <;> simp [ha]

theorem parseChars_of_divided {s base : List Char} {args : List (List Char)}
    (h : divide (trim s) = .ok (base, args)) :
    parseChars s = (args.mapM (parseArgument (trim s))).map (.node (.ofList base)) := by
  rw [parseChars]
  split
  · simp_all
  · rename_i base' args' hdivide
    obtain ⟨rfl, rfl⟩ := Prod.mk.inj (Except.ok.inj (h.symm.trans hdivide))
    rw [List.mapM_subtype (g := parseArgument (trim s)) fun a ha => rfl, List.unattach_attach]
    cases args.mapM (parseArgument (trim s)) <;> rfl

theorem parseChars_of_fault {s : List Char} {f : TypeFault} (h : divide (trim s) = .error f) :
    parseChars s = .error ⟨.ofList (trim s), f⟩ := by
  rw [parseChars]
  split <;> simp_all

theorem parseChars_eq_ok_iff {s : List Char} {t : TypeExpr} :
    parseChars s = .ok t ↔
      ∃ base args trees, divide (trim s) = .ok (base, args) ∧
        List.Forall₂ (fun a u => ¬Blank a ∧ parseChars a = .ok u) args trees ∧
        t = .node (.ofList base) trees := by
  cases hdivide : divide (trim s) with
  | error f => simp [parseChars_of_fault hdivide]
  | ok parts =>
    obtain ⟨base, args⟩ := parts
    simp only [Except.ok.injEq, Prod.mk.injEq, ← parseArgument_eq_ok_iff (trim s)]
    rw [parseChars_of_divided hdivide]
    refine ⟨?_, ?_⟩
    · intro h
      cases htrees : args.mapM (parseArgument (trim s)) with
      | error e => simp [htrees, Except.map] at h
      | ok trees =>
        rw [htrees] at h
        exact ⟨base, args, trees, ⟨rfl, rfl⟩, mapM_eq_ok_iff.1 htrees, (Except.ok.inj h).symm⟩
    · rintro ⟨_, _, trees, ⟨rfl, rfl⟩, htrees, rfl⟩
      rw [mapM_eq_ok_iff.2 htrees]
      rfl

theorem balanced_of_parse {s : List Char} {t : TypeExpr} (h : parseChars s = .ok t) :
    bracketFault? 0 s = none := by
  obtain ⟨base, args, trees, hdivide, -⟩ := parseChars_eq_ok_iff.1 h
  rw [← bracketFault?_trim]
  exact balanced_of_divide hdivide

theorem bracketFault?_intercalate {sep : List Char} (hsep : IsPlain sep) {args : List (List Char)}
    (h : ∀ a ∈ args, bracketFault? 0 a = none) :
    bracketFault? 0 (List.intercalate sep args) = none := by
  induction args with
  | nil => rfl
  | cons a args ih =>
    obtain ⟨ha, hargs⟩ := List.forall_mem_cons.1 h
    cases args with
    | nil => simpa using ha
    | cons b bs =>
      calc
        bracketFault? 0 (List.intercalate sep (a :: b :: bs)) =
            bracketFault? (0 + 0) (a ++ (sep ++ List.intercalate sep (b :: bs))) := by
          rw [List.intercalate_cons_cons, List.append_assoc]
        _ = bracketFault? 0 (List.intercalate sep (b :: bs)) := by
          rw [bracketFault?_append ha, bracketFault?_plain hsep]
        _ = none := ih hargs

theorem IsDivision.divide {text base : List Char} {args : List (List Char)}
    (h : IsDivision text base args) (hb : ∀ a ∈ args, bracketFault? 0 a = none) :
    divide text = .ok (trim base, args) := by
  rw [h.shape, divide_brackets h.plain h.named (bracketFault?_intercalate (by decide) hb),
    splitArguments_intercalate h.args_ne fun a ha => ⟨hb a ha, h.enclosed a ha⟩]

theorem parse_of_denotes {s : List Char} {t : TypeExpr} (h : Denotes s t) :
    parseChars s = .ok t := by
  induction h with
  | leaf plain => exact parseChars_eq_ok_iff.2 ⟨_, [], [], divide_plain plain, .nil, rfl⟩
  | @node s base parts division args ih =>
    have hdivide := division.divide fun a ha => by
      obtain ⟨p, hp, rfl⟩ := List.mem_map.1 ha
      exact balanced_of_parse (ih p hp)
    refine parseChars_eq_ok_iff.2 ⟨_, _, _, hdivide, ?_, rfl⟩
    rw [List.forall₂_map_left_iff, List.forall₂_map_right_iff, List.forall₂_same]
    intro p hp
    exact ⟨division.visible _ (List.mem_map_of_mem hp), ih p hp⟩

theorem denotes_of_parse {s : List Char} {t : TypeExpr} (h : parseChars s = .ok t) :
    Denotes s t := by
  induction s using parseChars.induct generalizing t with
  | case1 s fault hdivide =>
    obtain ⟨base, args, trees, hdivide', -⟩ := parseChars_eq_ok_iff.1 h
    rw [hdivide] at hdivide'
    cases hdivide'
  | case2 s base args hdivide ih =>
    obtain ⟨base', args', trees, hdivide', htrees, rfl⟩ := parseChars_eq_ok_iff.1 h
    obtain ⟨rfl, rfl⟩ := Prod.mk.inj (Except.ok.inj (hdivide.symm.trans hdivide'))
    rcases eq_of_divide hdivide with ⟨hplain, rfl, rfl⟩ | ⟨b, inner, hs, hplain, hnamed, rfl, rfl⟩
    · cases htrees
      exact .leaf hplain
    · have hread : ∀ p ∈ (splitArguments 0 inner).zip trees,
          ¬Blank p.1 ∧ parseChars p.1 = .ok p.2 := by
        intro p hp
        exact List.forall₂_zip htrees hp
      have hfst : ((splitArguments 0 inner).zip trees).map Prod.fst = splitArguments 0 inner :=
        List.map_fst_zip htrees.length_eq.le
      have hsnd : ((splitArguments 0 inner).zip trees).map Prod.snd = trees :=
        List.map_snd_zip htrees.length_eq.ge
      rw [← hsnd]
      refine .node ⟨?_, hplain, hnamed, ?_, ?_, ?_⟩ ?_
      · rw [hfst, intercalate_splitArguments, hs]
      · rw [hfst]
        exact splitArguments_ne_nil 0 inner
      · rw [List.forall_mem_map]
        intro p hp
        exact (hread p hp).1
      · rw [List.forall_mem_map]
        intro p hp
        exact enclosesCommas_of_mem (List.of_mem_zip hp).1 (balanced_of_parse (hread p hp).2)
      · intro p hp
        exact ih _ (List.of_mem_zip hp).1 (hread p hp).2

theorem parseChars_iff_denotes {s : List Char} {t : TypeExpr} :
    parseChars s = .ok t ↔ Denotes s t := ⟨denotes_of_parse, parse_of_denotes⟩

end StagedBuilder.TypeExpr
