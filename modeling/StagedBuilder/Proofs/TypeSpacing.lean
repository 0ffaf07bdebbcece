import StagedBuilder.Proofs.TypeGrammar

namespace StagedBuilder.TypeExpr

open Text

def IsGap (before after : List Char) : Prop :=
  before = [] ∨ after = [] ∨
    ∃ c, (before.getLast? = some c ∨ after.head? = some c) ∧
      (c = '<' ∨ c = '>' ∨ c = ',' ∧ before.count '>' < before.count '<')

/-- Texts that differ in the blanks at one gap. -/
def Respaced (s s' : List Char) : Prop :=
  ∃ before blanks blanks' after, s = before ++ blanks ++ after ∧ s' = before ++ blanks' ++ after ∧
    Blank blanks ∧ Blank blanks' ∧ IsGap before after

section Cuts

variable {c : Char} {x y w l r : List Char}

theorem cut_of_append_eq (h : x ++ y = l ++ c :: r) :
    (∃ m, x = l ++ c :: m ∧ r = m ++ y) ∨ ∃ m, l = x ++ m ∧ y = m ++ c :: r := by
  rcases List.append_eq_append_iff.1 h with ⟨m, hl, hy⟩ | ⟨m, hx, hm⟩
  · exact .inr ⟨m, hl, hy⟩
  · cases m with
    | nil => exact .inr ⟨[], by simpa using hx.symm, by simpa using hm.symm⟩
    | cons d m =>
      obtain ⟨rfl, rfl⟩ := List.cons.inj hm
      exact .inl ⟨m, hx, rfl⟩

theorem cut_of_blank_append (hw : Blank w) (hc : isBlank c = false) (h : w ++ y = l ++ c :: r) :
    ∃ m, l = w ++ m ∧ y = m ++ c :: r := by
  rcases cut_of_append_eq h with ⟨m, rfl, -⟩ | hcut
  · exact absurd (by simp) (hw.not_mem hc)
  · exact hcut

end Cuts

theorem count_of_plain {s : List Char} (h : IsPlain s) : s.count '<' = 0 ∧ s.count '>' = 0 :=
  ⟨List.count_eq_zero.2 h.1, List.count_eq_zero.2 h.2⟩

theorem comma_not_mem {before : List Char} (after : List Char)
    (h : EnclosesCommas 0 (before ++ after))
    (hplain : IsPlain before) : ',' ∉ before := by
  intro hmem
  obtain ⟨x, y, rfl, -⟩ := List.eq_append_cons_of_mem hmem
  have hcount := h x (y ++ after) (by simp)
  have hx : '<' ∉ x := fun hx => hplain.1 (List.mem_append_left _ hx)
  rw [List.count_eq_zero.2 hx] at hcount
  omega

theorem EnclosesCommas.respace {u w w' v : List Char} (hw : Blank w) (hw' : Blank w')
    (h : EnclosesCommas 0 (u ++ w ++ v)) : EnclosesCommas 0 (u ++ w' ++ v) := by
  intro before after heq
  rw [List.append_assoc] at heq
  rcases cut_of_append_eq heq with ⟨m, rfl, -⟩ | ⟨m, rfl, hm⟩
  · exact h before (m ++ w ++ v) (by simp)
  · obtain ⟨v', rfl, rfl⟩ := cut_of_blank_append hw' (by decide) hm
    have hcount := h (u ++ w ++ v') after (by simp)
    obtain ⟨hopen, hclose⟩ := count_of_plain (isPlain_of_blank hw)
    obtain ⟨hopen', hclose'⟩ := count_of_plain (isPlain_of_blank hw')
    simpa [List.count_append, hopen, hclose, hopen', hclose'] using hcount

theorem Denotes.of_trim_eq {s s' : List Char} {t : TypeExpr} (h : Denotes s t)
    (heq : trim s' = trim s) : Denotes s' t := by
  cases h with
  | leaf plain =>
    rw [← heq] at plain ⊢
    exact .leaf plain
  | node division args =>
    rw [← heq] at division
    exact .node division args

theorem denotes_brackets {base rest : List Char} {parts : List (List Char × TypeExpr)}
    (hplain : IsPlain base) (hnamed : ¬Blank base) (hne : parts ≠ [])
    (hvisible : ∀ p ∈ parts, ¬Blank p.1) (henclosed : ∀ p ∈ parts, EnclosesCommas 0 p.1)
    (hparts : ∀ p ∈ parts, Denotes p.1 p.2) (hrest : Blank rest) :
    Denotes (base ++ '<' :: (List.intercalate [','] (parts.map Prod.fst) ++ '>' :: rest))
      (.node (.ofList (trim base)) (parts.map Prod.snd)) := by
  obtain ⟨l, hl, hbase⟩ := exists_trimStart base
  have hstart : trimStart base ≠ [] := by
    intro hnil
    rw [hnil, List.append_nil] at hbase
    exact hnamed (hbase ▸ hl)
  have htrim : trim base = trim (trimStart base) := by
    conv => lhs; rw [hbase, trim_blank_append hl]
  have htext : trim (base ++ '<' :: (List.intercalate [','] (parts.map Prod.fst) ++ '>' :: rest)) =
      trimStart base ++ '<' :: (List.intercalate [','] (parts.map Prod.fst) ++ ['>']) := by
    calc
      _ = trim (l ++ (trimStart base ++
            '<' :: (List.intercalate [','] (parts.map Prod.fst) ++ ['>'])) ++ rest) := by
        conv => lhs; rw [hbase]
        simp
      _ = _ := by
        rw [trim_pad hl hrest]
        apply trim_eq_self
        · intro c hc
          rw [List.head?_append_of_ne_nil _ hstart] at hc
          exact head_trimStart hc
        · intro c hc
          simp [List.getLast?_cons] at hc
          subst hc
          decide
  rw [htrim]
  refine .node ⟨htext, ?_, ?_, by simpa using hne, ?_, ?_⟩ hparts
  · rw [hbase] at hplain
    exact (isPlain_append.1 hplain).2
  · intro hblank
    exact hnamed (hbase ▸ blank_append.2 ⟨hl, hblank⟩)
  · rwa [List.forall_mem_map]
  · rwa [List.forall_mem_map]

theorem brackets_of_denotes {s base : List Char} {args : List (List Char)}
    (h : IsDivision (trim s) base args) :
    ∃ b rest, s = b ++ '<' :: (List.intercalate [','] args ++ '>' :: rest) ∧ IsPlain b ∧
      ¬Blank b ∧ Blank rest ∧ trim b = trim base := by
  obtain ⟨l, r, hl, hr, hs⟩ := exists_trim s
  refine ⟨l ++ base, r, ?_, isPlain_append.2 ⟨isPlain_of_blank hl, h.plain⟩, ?_, hr,
    trim_blank_append hl base⟩
  · rw [hs, h.shape]
    simp
  · intro hblank
    exact h.named (blank_append.1 hblank).2

theorem IsGap.end_of_plain {x y : List Char} (rest : List Char) (h : IsGap x (y ++ rest))
    (hx : IsPlain x) (hy : IsPlain y) : x = [] ∨ y = [] := by
  by_contra hne
  rw [not_or] at hne
  rcases h with h | h | ⟨c, hc, h⟩
  · exact hne.1 h
  · exact hne.2 (List.append_eq_nil_iff.1 h).1
  · have hmem : c ∈ x ∨ c ∈ y := by
      rw [List.head?_append_of_ne_nil _ hne.2] at hc
      exact hc.imp List.mem_of_getLast? List.mem_of_head?
    obtain ⟨hopen, hclose⟩ := count_of_plain hx
    rcases h with rfl | rfl | ⟨-, h⟩
    · exact hmem.elim hx.1 hy.1
    · exact hmem.elim hx.2 hy.2
    · omega

theorem trim_respace {x y w w' : List Char} (h : x = [] ∨ y = []) (hw : Blank w)
    (hw' : Blank w') : trim (x ++ w' ++ y) = trim (x ++ w ++ y) := by
  rcases h with rfl | rfl
  · simp [trim_blank_append hw, trim_blank_append hw']
  · simp [trim_append_blank hw, trim_append_blank hw']

theorem last_of_tail {u m z : List Char} {c : Char} (h : u = [] ∨ u.getLast? = m.getLast?) :
    u = [] ∨ u.getLast? = (z ++ c :: m).getLast? := by
  rcases List.eq_nil_or_concat m with rfl | ⟨m, d, rfl⟩
  · exact .inl (by simpa using h)
  · refine h.imp_right ?_
    intro hlast
    simp [hlast, List.getLast?_cons]

theorem head_of_front {v y z : List Char} (h : v = [] ∨ v.head? = y.head?) :
    v = [] ∨ v.head? = (y ++ z).head? := by
  cases y with
  | nil => exact .inl (by simpa using h)
  | cons d y => exact h

theorem exists_argument {parts : List (List Char × TypeExpr)} {m w y : List Char}
    (hne : parts ≠ []) (hw : Blank w)
    (h : List.intercalate [','] (parts.map Prod.fst) = m ++ w ++ y) :
    ∃ before p after u v, parts = before ++ p :: after ∧ p.1 = u ++ w ++ v ∧
      (∀ w', List.intercalate [','] ((before ++ (u ++ w' ++ v, p.2) :: after).map Prod.fst) =
        m ++ w' ++ y) ∧
      (u = [] ∨ u.getLast? = m.getLast?) ∧ (v = [] ∨ v.head? = y.head?) := by
  induction parts generalizing m with
  | nil => exact absurd rfl hne
  | cons p parts ih =>
    cases parts with
    | nil =>
      refine ⟨[], p, [], m, y, rfl, by simpa using h, ?_, .inr rfl, .inr rfl⟩
      intro w'
      simp
    | cons q parts =>
      rw [List.map_cons, List.map_cons, List.intercalate_cons_cons, ← List.map_cons,
        List.append_assoc, List.append_assoc, List.singleton_append] at h
      rcases cut_of_append_eq h.symm with ⟨m', rfl, hm'⟩ | ⟨k, hp, hk⟩
      · obtain ⟨before, p', after, u, v, hparts, hp', hjoin, hu, hv⟩ :=
          ih (List.cons_ne_nil _ _) (by rw [hm', List.append_assoc])
        refine ⟨p :: before, p', after, u, v, by rw [hparts]; rfl, hp', ?_, ?_, hv⟩
        · intro w'
          rw [List.cons_append, List.map_cons, List.intercalate_cons_of_ne_nil (by simp), hjoin w']
          simp
        · exact last_of_tail hu
      · obtain ⟨v, rfl, rfl⟩ := cut_of_blank_append hw (by decide) hk
        refine ⟨[], p, q :: parts, m, v, rfl, by rw [hp, List.append_assoc], ?_, .inr rfl, ?_⟩
        · intro w'
          simp [List.intercalate_cons_cons]
        · cases v with
          | nil => exact .inl rfl
          | cons c v => exact .inr rfl

theorem IsGap.argument {x y u w v : List Char} (h : IsGap x y)
    (henclosed : EnclosesCommas 0 (u ++ w ++ v)) (hw : Blank w)
    (hu : u = [] ∨ u.getLast? = x.getLast?) (hv : v = [] ∨ v.head? = y.head?) : IsGap u v := by
  rcases hu with hu | hu
  · exact .inl hu
  rcases hv with hv | hv
  · exact .inr (.inl hv)
  rcases h with rfl | rfl | ⟨c, hc, h⟩
  · exact .inl (by simpa using hu)
  · exact .inr (.inl (by simpa using hv))
  · rw [← hu, ← hv] at hc
    refine .inr (.inr ⟨c, hc, ?_⟩)
    rcases h with rfl | rfl | ⟨rfl, -⟩
    · exact .inl rfl
    · exact .inr (.inl rfl)
    · refine .inr (.inr ⟨rfl, ?_⟩)
      rcases hc with hc | hc
      · obtain ⟨u', rfl⟩ := List.getLast?_eq_some_iff.1 hc
        have := henclosed u' (w ++ v) (by simp)
        simpa using this
      · obtain ⟨v', rfl⟩ := List.head?_eq_some_iff.1 hc
        obtain ⟨hopen, hclose⟩ := count_of_plain (isPlain_of_blank hw)
        have := henclosed (u ++ w) v' rfl
        simpa [List.count_append, hopen, hclose] using this

theorem denotes_of_arguments {b rest m w w' y : List Char} {parts : List (List Char × TypeExpr)}
    (hplain : IsPlain b) (hnamed : ¬Blank b) (hrest : Blank rest) (hne : parts ≠ [])
    (hvisible : ∀ p ∈ parts, ¬Blank p.1) (henclosed : ∀ p ∈ parts, EnclosesCommas 0 p.1)
    (ih : ∀ p ∈ parts, ∀ s', Respaced p.1 s' → Denotes s' p.2)
    (hparts : ∀ p ∈ parts, Denotes p.1 p.2) (hw : Blank w) (hw' : Blank w')
    (hjoin : List.intercalate [','] (parts.map Prod.fst) = m ++ w ++ y)
    (hgap : IsGap (b ++ '<' :: m) (y ++ '>' :: rest)) :
    Denotes (b ++ '<' :: (m ++ w' ++ y ++ '>' :: rest))
      (.node (.ofList (trim b)) (parts.map Prod.snd)) := by
  obtain ⟨before, p, after, u, v, rfl, hp, hjoin', hu, hv⟩ := exists_argument hne hw hjoin
  have hmem : p ∈ before ++ p :: after := by simp
  have hgap' : IsGap u v :=
    hgap.argument (hp ▸ henclosed p hmem) hw (last_of_tail hu) (head_of_front hv)
  have hmoved : Denotes (u ++ w' ++ v) p.2 :=
    ih p hmem _ ⟨u, w, w', v, hp, rfl, hw, hw', hgap'⟩
  have hsame : (before ++ p :: after).map Prod.snd =
      (before ++ (u ++ w' ++ v, p.2) :: after).map Prod.snd := by simp
  have hall {P : List Char × TypeExpr → Prop} (h : ∀ q ∈ before ++ p :: after, P q)
      (hnew : P (u ++ w' ++ v, p.2)) : ∀ q ∈ before ++ (u ++ w' ++ v, p.2) :: after, P q := by
    simp only [List.forall_mem_append, List.forall_mem_cons] at h ⊢
    exact ⟨h.1, hnew, h.2.2⟩
  rw [← hjoin' w', hsame]
  refine denotes_brackets hplain hnamed (by simp) (hall hvisible ?_) (hall henclosed ?_)
    (hall hparts hmoved) hrest
  · intro hblank
    apply hvisible p hmem
    simp only [blank_append] at hblank
    simp [hp, hblank, hw]
  · exact (hp ▸ henclosed p hmem).respace hw hw'

theorem Denotes.respaced {s s' : List Char} {t : TypeExpr} (h : Denotes s t)
    (hs : Respaced s s') : Denotes s' t := by
  induction h generalizing s' with
  | @leaf s plain =>
    obtain ⟨x, w, w', y, rfl, rfl, hw, hw', hgap⟩ := hs
    have hplain := plain
    rw [isPlain_trim, isPlain_append, isPlain_append] at hplain
    have hend : x = [] ∨ y = [] :=
      IsGap.end_of_plain [] (by simpa using hgap) hplain.1.1 hplain.2
    exact (Denotes.leaf plain).of_trim_eq (trim_respace hend hw hw')
  | @node s base parts division args ih =>
    obtain ⟨x, w, w', y, rfl, rfl, hw, hw', hgap⟩ := hs
    obtain ⟨b, rest, hs, hplain, hnamed, hrest, htrim⟩ := brackets_of_denotes division
    have hne : parts ≠ [] := by simpa using division.args_ne
    have hvisible := List.forall_mem_map.1 division.visible
    have henclosed := List.forall_mem_map.1 division.enclosed
    rw [← htrim]
    rw [List.append_assoc] at hs
    rcases cut_of_append_eq hs with ⟨m, rfl, hm⟩ | ⟨m, rfl, hm⟩
    · rcases cut_of_append_eq hm.symm with ⟨k, rfl, rfl⟩ | ⟨k, hjoin, hk⟩
      · have hrest' : Blank (k ++ w' ++ y) := by
          simp only [blank_append] at hrest ⊢
          exact ⟨⟨hrest.1, hw'⟩, hrest.2.2⟩
        simpa using denotes_brackets hplain hnamed hne hvisible henclosed args hrest'
      · obtain ⟨y', rfl, rfl⟩ := cut_of_blank_append hw (by decide) hk
        rw [← List.append_assoc] at hjoin
        simpa using denotes_of_arguments hplain hnamed hrest hne hvisible henclosed
          (fun p hp s' => ih p hp) args hw hw' hjoin hgap
    · obtain ⟨y', rfl, rfl⟩ := cut_of_blank_append hw (by decide) hm
      have hend : x = [] ∨ y' = [] := by
        simp only [isPlain_append] at hplain
        exact IsGap.end_of_plain _ hgap hplain.1 hplain.2.2
      have hnamed' : ¬Blank (x ++ w' ++ y') := by
        simp only [blank_append] at hnamed ⊢
        tauto
      have hplain' : IsPlain (x ++ w' ++ y') := by
        simp only [isPlain_append] at hplain ⊢
        exact ⟨⟨hplain.1, isPlain_of_blank hw'⟩, hplain.2.2⟩
      rw [← List.append_assoc x, ← trim_respace hend hw hw']
      simpa using denotes_brackets hplain' hnamed' hne hvisible henclosed args hrest

end StagedBuilder.TypeExpr
