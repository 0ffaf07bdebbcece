import StagedBuilder.Proofs.DottedNames

namespace StagedBuilder

namespace Text

variable {pat new s w : List Char} {c : Char}

def Apart (u v : List Char) : Prop := ¬u <+: v ∧ ¬v <+: u

instance (u v : List Char) : Decidable (Apart u v) := inferInstanceAs (Decidable (_ ∧ _))

theorem Apart.not_starts {u v : List Char} (h : Apart u v) (s : List Char) : ¬v <+: u ++ s := by
  intro hv
  rcases List.prefix_or_prefix_of_prefix hv (List.prefix_append u s) with hprefix | hprefix
  · exact h.2 hprefix
  · exact h.1 hprefix

def ApartInside (v : List Char) : List Char → Prop
  | [] => True
  | c :: s => Apart (c :: s) v ∧ ApartInside v s

instance ApartInside.decide (v : List Char) : (s : List Char) → Decidable (ApartInside v s)
  | [] => isTrue trivial
  | c :: s =>
    have := ApartInside.decide v s
    inferInstanceAs (Decidable (Apart (c :: s) v ∧ ApartInside v s))

theorem replaceAfter_append (pat new l s : List Char) :
    replaceAfter pat new l.length (l ++ s) = replace pat new s := by
  induction l with
  | nil => rfl
  | cons c l ih => exact ih

theorem replace_append (hpat : pat ≠ []) (new s : List Char) :
    replace pat new (pat ++ s) = new ++ replace pat new s := by
  obtain ⟨c, cs, rfl⟩ := List.exists_cons_of_ne_nil hpat
  have hprefix : (c :: cs).isPrefixOf (c :: (cs ++ s)) = true :=
    List.isPrefixOf_iff_prefix.2 (List.prefix_append (c :: cs) s)
  rw [replace, List.cons_append, replaceAfter, if_pos hprefix]
  exact congrArg (new ++ ·) (replaceAfter_append (c :: cs) new cs s)

theorem replace_cons (h : ¬pat <+: c :: s) : replace pat new (c :: s) = c :: replace pat new s := by
  rw [replace, replaceAfter, if_neg (mt List.isPrefixOf_iff_prefix.1 h)]
  rfl

theorem replace_append_of_apart (h : ApartInside pat w) (new s : List Char) :
    replace pat new (w ++ s) = w ++ replace pat new s := by
  induction w with
  | nil => rfl
  | cons c w ih =>
    have hhere : ¬pat <+: c :: (w ++ s) := h.1.not_starts s
    rw [List.cons_append, replace_cons hhere, ih h.2, List.cons_append]

theorem prefix_of_prefix_replace (hpat : pat ≠ []) (hnew : ApartInside new w)
    (h : w <+: replace pat new s) : w <+: s := by
  induction w generalizing s with
  | nil => exact List.nil_prefix
  | cons d w ih =>
    cases s with
    | nil => exact h
    | cons c s =>
      by_cases hprefix : pat <+: c :: s
      · obtain ⟨rest, hrest⟩ := hprefix
        rw [← hrest, replace_append hpat] at h
        rcases List.prefix_or_prefix_of_prefix h (List.prefix_append new _) with hstart | hstart
        · exact absurd hstart hnew.1.1
        · exact absurd hstart hnew.1.2
      · rw [replace_cons hprefix, List.cons_prefix_cons] at h
        rw [List.cons_prefix_cons]
        exact ⟨h.1, ih hnew.2 h.2⟩

end Text

open Text

namespace NameTemplate

inductive Part
  | literal (c : Char)
  | package
  | simpleName
  deriving DecidableEq

namespace Part

def spelling : Part → List Char
  | .literal c => [c]
  | .package => packageMark
  | .simpleName => simpleNameMark

def IsMark (p : Part) : Prop := p = .package ∨ p = .simpleName

end Part

open NameTemplate.Part

def spell (parts : List Part) : List Char := parts.flatMap spelling

def exchange (mark : Part) (new : List Char) (parts : List Part) : List Part :=
  parts.flatMap fun p => if p = mark then new.map .literal else [p]

def Bracketed (parts : List Part) : Prop := ∀ p ∈ parts, p ≠ .literal '\x7b'

section Exchanging

variable {mark p : Part} {new s : List Char} {parts : List Part}

@[simp] theorem spell_nil : spell [] = [] := rfl

@[simp] theorem spell_cons : spell (p :: parts) = p.spelling ++ spell parts := List.flatMap_cons

theorem spell_append (parts others : List Part) :
    spell (parts ++ others) = spell parts ++ spell others := List.flatMap_append

theorem spell_literals (s : List Char) : spell (s.map .literal) = s := by
  rw [spell, List.flatMap_map]
  exact List.flatMap_singleton' s

theorem bracketed_cons : Bracketed (p :: parts) ↔ p ≠ .literal '\x7b' ∧ Bracketed parts :=
  List.forall_mem_cons

theorem spelling_of_isMark (hmark : mark.IsMark) :
    ∃ rest, mark.spelling = '$' :: '\x7b' :: rest := by
  rcases hmark with rfl | rfl
  · exact ⟨_, rfl⟩
  · exact ⟨_, rfl⟩

theorem spelling_ne_nil (p : Part) : p.spelling ≠ [] := by
  cases p with
  | literal c => exact List.cons_ne_nil _ _
  | package => exact List.cons_ne_nil _ _
  | simpleName => exact List.cons_ne_nil _ _

theorem exists_head_spelling {d : Char} (hd : d ≠ '$') (hp : p ≠ .literal d) :
    ∃ c rest, p.spelling = c :: rest ∧ c ≠ d := by
  cases p with
  | literal c => exact ⟨c, [], rfl, fun hc => hp (hc ▸ rfl)⟩
  | package => exact ⟨'$', _, rfl, hd.symm⟩
  | simpleName => exact ⟨'$', _, rfl, hd.symm⟩

theorem not_prefix_spell {d : Char} (hd : d ≠ '$') (hparts : ∀ rest, parts ≠ .literal d :: rest)
    (s : List Char) : ¬d :: s <+: spell parts := by
  cases parts with
  | nil => exact fun h => absurd (List.prefix_nil.1 h) (List.cons_ne_nil _ _)
  | cons p parts =>
    obtain ⟨c, rest, hp, hc⟩ := exists_head_spelling hd fun hp => hparts parts (hp ▸ rfl)
    rw [spell_cons, hp, List.cons_append, List.cons_prefix_cons]
    exact fun h => hc h.1.symm

theorem Bracketed.brace_not_first (hparts : Bracketed parts) (s : List Char) :
    ¬ '\x7b' :: s <+: spell parts := by
  refine not_prefix_spell (by decide) (fun rest heq => ?_) s
  exact hparts _ (heq ▸ List.mem_cons_self) rfl

theorem spelling_apart (hparts : Bracketed (p :: parts)) (hmark : mark.IsMark) (hp : p ≠ mark) :
    replace mark.spelling new (p.spelling ++ spell parts) =
      p.spelling ++ replace mark.spelling new (spell parts) := by
  cases p with
  | literal c =>
    refine replace_cons fun hprefix => ?_
    obtain ⟨rest, hrest⟩ := spelling_of_isMark hmark
    rw [hrest, List.cons_prefix_cons] at hprefix
    exact (bracketed_cons.1 hparts).2.brace_not_first rest hprefix.2
  | package =>
    obtain rfl : mark = .simpleName := hmark.resolve_left hp.symm
    exact replace_append_of_apart (by decide) new (spell parts)
  | simpleName =>
    obtain rfl : mark = .package := hmark.resolve_right hp.symm
    exact replace_append_of_apart (by decide) new (spell parts)

theorem replace_spell (hparts : Bracketed parts) (hmark : mark.IsMark) :
    replace mark.spelling new (spell parts) = spell (exchange mark new parts) := by
  induction parts with
  | nil => rfl
  | cons p parts ih =>
    rw [exchange, List.flatMap_cons, spell_append, spell_cons]
    by_cases hp : p = mark
    · obtain ⟨rest, hrest⟩ := spelling_of_isMark hmark
      rw [if_pos hp, hp, replace_append (hrest ▸ List.cons_ne_nil _ _), spell_literals,
        ih (bracketed_cons.1 hparts).2]
      rfl
    · rw [if_neg hp, spelling_apart hparts hmark hp, ih (bracketed_cons.1 hparts).2, spell_cons,
        spell_nil, List.append_nil]
      rfl

end Exchanging

section Filling

variable {package simple s t : List Char} {parts : List Part}

def fill (package simple t : List Char) : List Char :=
  replace simpleNameMark simple (replace packageMark package t)

def filling (package simple : List Char) : Part → List Char
  | .literal c => [c]
  | .package => package
  | .simpleName => simple

theorem exchange_cons (mark p : Part) (new : List Char) :
    exchange mark new (p :: parts) =
      (if p = mark then new.map .literal else [p]) ++ exchange mark new parts := List.flatMap_cons

theorem exchange_literals {mark : Part} (hmark : mark.IsMark) (new s : List Char) :
    exchange mark new (s.map .literal) = s.map .literal := by
  induction s with
  | nil => rfl
  | cons c s ih =>
    have hc : Part.literal c ≠ mark := by rcases hmark with rfl | rfl <;> nofun
    rw [List.map_cons, exchange_cons, if_neg hc, ih, List.singleton_append]

theorem exchange_append (mark : Part) (new : List Char) (parts others : List Part) :
    exchange mark new (parts ++ others) = exchange mark new parts ++ exchange mark new others :=
  List.flatMap_append

theorem bracketed_exchange {mark : Part} (hparts : Bracketed parts) (hpackage : '\x7b' ∉ package) :
    Bracketed (exchange mark package parts) := by
  intro p hp
  obtain ⟨q, hq, hp⟩ := List.mem_flatMap.1 hp
  split_ifs at hp
  · obtain ⟨c, hc, rfl⟩ := List.mem_map.1 hp
    exact fun heq => hpackage (Part.literal.inj heq ▸ hc)
  · exact List.mem_singleton.1 hp ▸ hparts q hq

theorem spell_exchange (package simple : List Char) (parts : List Part) :
    spell (exchange .simpleName simple (exchange .package package parts)) =
      parts.flatMap (filling package simple) := by
  induction parts with
  | nil => rfl
  | cons p parts ih =>
    rw [exchange_cons, exchange_append, spell_append, ih, List.flatMap_cons]
    congr 1
    cases p with
    | literal c => rfl
    | package =>
      rw [if_pos rfl, exchange_literals (.inr rfl), spell_literals, filling]
    | simpleName =>
      rw [if_neg nofun, exchange_cons, if_pos rfl, filling]
      exact (spell_append _ _).trans (by rw [spell_literals]; exact List.append_nil _)

theorem fill_spell (hparts : Bracketed parts) (hpackage : '\x7b' ∉ package) :
    fill package simple (spell parts) = parts.flatMap (filling package simple) :=
  calc
    fill package simple (spell parts) =
        replace simpleNameMark simple (spell (exchange .package package parts)) :=
      congrArg _ (replace_spell hparts (.inl rfl))
    _ = spell (exchange .simpleName simple (exchange .package package parts)) :=
      replace_spell (bracketed_exchange hparts hpackage) (.inr rfl)
    _ = parts.flatMap (filling package simple) := spell_exchange package simple parts

theorem exists_parts (h : '\x7b' ∉ fill "pkg".toList "Simple".toList t) :
    ∃ parts, t = spell parts ∧ Bracketed parts := by
  induction hlength : t.length using Nat.strong_induction_on generalizing t with
  | h n ih =>
    have hrest {p : Part} {rest : List Char} (hp : p ≠ .literal '\x7b')
        (ht : t = p.spelling ++ rest)
        (hfill : '\x7b' ∉ fill "pkg".toList "Simple".toList rest) :
        ∃ parts, t = spell parts ∧ Bracketed parts := by
      have hlt : rest.length < n := by
        rw [← hlength, ht, List.length_append]
        exact Nat.lt_add_of_pos_left (List.length_pos_of_ne_nil (spelling_ne_nil p))
      obtain ⟨parts, rfl, hparts⟩ := ih rest.length hlt hfill rfl
      exact ⟨p :: parts, ht, bracketed_cons.2 ⟨hp, hparts⟩⟩
    by_cases hpackage : packageMark <+: t
    · obtain ⟨rest, rfl⟩ := hpackage
      rw [fill, replace_append (by decide), replace_append_of_apart (by decide),
        List.mem_append, not_or] at h
      exact hrest (p := .package) nofun rfl h.2
    · by_cases hsimple : simpleNameMark <+: t
      · obtain ⟨rest, rfl⟩ := hsimple
        rw [fill, replace_append_of_apart (by decide), replace_append (by decide),
          List.mem_append, not_or] at h
        exact hrest (p := .simpleName) nofun rfl h.2
      · cases t with
        | nil => exact ⟨[], rfl, nofun⟩
        | cons c t =>
          have hlater : ¬simpleNameMark <+: c :: replace packageMark "pkg".toList t := by
            rw [← replace_cons hpackage]
            exact mt (prefix_of_prefix_replace (by decide) (by decide)) hsimple
          rw [fill, replace_cons hpackage, replace_cons hlater, List.mem_cons, not_or] at h
          exact hrest (p := .literal c) (fun hc => h.1 (Part.literal.inj hc).symm) rfl h.2

end Filling

section DefaultPackage

variable {parts : List Part}

def collapse : List Part → List Part
  | [] => []
  | .package :: .literal '.' :: parts => collapse parts
  | p :: parts => p :: collapse parts

theorem replace_dotted (hparts : Bracketed parts) :
    replace (packageMark ++ ['.']) [] (spell parts) = spell (collapse parts) := by
  induction parts using collapse.induct with
  | case1 => rfl
  | case2 parts ih =>
    have hrest : Bracketed parts := (bracketed_cons.1 (bracketed_cons.1 hparts).2).2
    have hspell : spell (.package :: .literal '.' :: parts) =
        (packageMark ++ ['.']) ++ spell parts := by
      rw [spell_cons, spell_cons, List.append_assoc]
      rfl
    rw [collapse, hspell, replace_append (by decide), ih hrest, List.nil_append]
  | case3 p parts hp ih =>
    rw [collapse.eq_3 p parts hp, spell_cons, spell_cons, ← ih (bracketed_cons.1 hparts).2]
    cases p with
    | literal c =>
      refine replace_cons fun hprefix => ?_
      have hbrace : '\x7b' :: _ <+: spell parts := (List.cons_prefix_cons.1 hprefix).2
      exact (bracketed_cons.1 hparts).2.brace_not_first _ hbrace
    | simpleName => exact replace_append_of_apart (by decide) [] (spell parts)
    | package =>
      have hdot : ¬packageMark ++ ['.'] <+: packageMark ++ spell parts := by
        rw [List.prefix_append_right_inj]
        exact not_prefix_spell (by decide) (fun rest hrest => hp rest rfl hrest) []
      calc
        replace (packageMark ++ ['.']) [] (packageMark ++ spell parts) =
            '$' :: replace (packageMark ++ ['.']) [] (packageMark.tail ++ spell parts) :=
          replace_cons hdot
        _ = packageMark ++ replace (packageMark ++ ['.']) [] (spell parts) := by
          rw [replace_append_of_apart (by decide)]
          rfl

end DefaultPackage

section Scanning

open Reading

variable {parts : List Part} {r r' : Reading} {package simple package' simple' : List Char}

theorem scan_filling (hpackage : Fits package) (hpackage' : Fits package') (hsimple : Fits simple)
    (hsimple' : Fits simple')
    (h : scan startsIdentifier r (parts.flatMap (filling package simple)) = .within) :
    scan startsIdentifier r (parts.flatMap (filling package' simple')) = .within := by
  induction parts generalizing r with
  | nil => exact h
  | cons p parts ih =>
    have hr : r ≠ .refused := ne_refused_of_scan h nofun
    rw [List.flatMap_cons, scan_append] at h ⊢
    cases p with
    | literal c => exact ih h
    | package =>
      rw [filling, scan_of_fits (fun _ => id) hpackage hr] at h
      rw [filling, scan_of_fits (fun _ => id) hpackage' hr]
      exact ih h
    | simpleName =>
      rw [filling, scan_of_fits (fun _ => id) hsimple hr] at h
      rw [filling, scan_of_fits (fun _ => id) hsimple' hr]
      exact ih h

theorem scan_package_dot (hpackage : Fits package) (hr : r ≠ .refused) :
    scan startsIdentifier r
        ((.package :: .literal '.' :: parts).flatMap (filling package simple)) =
      scan startsIdentifier .between (parts.flatMap (filling package simple)) := by
  have hdot : scan startsIdentifier .within ['.'] = .between := rfl
  rw [List.flatMap_cons, List.flatMap_cons, scan_append, scan_append]
  simp only [filling]
  rw [scan_of_fits (fun _ => id) hpackage hr, hdot]

theorem scan_collapse (hpackage : Fits package) (hsimple : Fits simple) (hsimple' : Fits simple')
    (hr' : r' ≠ .refused)
    (hlag : r = .within → r' = .between → ∀ rest, parts ≠ .literal '.' :: rest)
    (h : scan startsIdentifier r (parts.flatMap (filling package simple)) = .within) :
    scan continuesIdentifier r' ((collapse parts).flatMap (filling [] simple')) ≠ .refused := by
  induction parts using collapse.induct generalizing r r' with
  | case1 => exact hr'
  | case2 parts ih =>
    rw [scan_package_dot hpackage (ne_refused_of_scan h nofun)] at h
    rw [collapse]
    exact ih (r := .between) hr' nofun h
  | case3 p parts hp ih =>
    have hr : r ≠ .refused := ne_refused_of_scan h nofun
    rw [List.flatMap_cons, scan_append] at h
    rw [collapse.eq_3 p parts hp, List.flatMap_cons, scan_append]
    cases p with
    | literal c =>
      have hnext : next startsIdentifier r c ≠ .refused := ne_refused_of_scan h nofun
      have hsame : next continuesIdentifier r' c = next startsIdentifier r c := by
        refine next_eq_of_lagging (fun _ => continues_of_starts) hnext hr' ?_
        intro hwithin hbetween
        exact ⟨fun hc => hlag hwithin hbetween parts (hc ▸ rfl), id⟩
      rw [filling, scan_cons, scan_nil, hsame]
      refine ih hnext ?_ h
      intro hwithin hbetween
      exact nomatch hwithin.symm.trans hbetween
    | package =>
      rw [filling, scan_of_fits (fun _ => id) hpackage hr] at h
      exact ih hr' (fun _ _ rest hrest => hp rest rfl hrest) h
    | simpleName =>
      rw [filling, scan_of_fits (fun _ => id) hsimple hr] at h
      rw [filling, scan_of_fits (fun _ => continues_of_starts) hsimple' hr']
      exact ih nofun nofun h

def Dotted (parts : List Part) : Prop :=
  ∀ before after, parts = before ++ .package :: after → ∃ rest, after = .literal '.' :: rest

theorem Dotted.of_cons {p : Part} (h : Dotted (p :: parts)) : Dotted parts :=
  fun before after heq => h (p :: before) after (by rw [heq, List.cons_append])

theorem scan_collapse_of_dotted (hpackage : Fits package) (hsimple : Fits simple)
    (hsimple' : Fits simple') (hdotted : Dotted parts) (hr' : r' ≠ .refused)
    (hlag : r = .within → r' = .within)
    (h : scan startsIdentifier r (parts.flatMap (filling package simple)) = .within) :
    scan startsIdentifier r' ((collapse parts).flatMap (filling [] simple')) = .within := by
  induction parts using collapse.induct generalizing r r' with
  | case1 => exact hlag h
  | case2 parts ih =>
    rw [scan_package_dot hpackage (ne_refused_of_scan h nofun)] at h
    rw [collapse]
    exact ih (r := .between) hdotted.of_cons.of_cons hr' nofun h
  | case3 p parts hp ih =>
    have hr : r ≠ .refused := ne_refused_of_scan h nofun
    rw [List.flatMap_cons, scan_append] at h
    rw [collapse.eq_3 p parts hp, List.flatMap_cons, scan_append]
    cases p with
    | literal c =>
      have hnext : next startsIdentifier r c ≠ .refused := ne_refused_of_scan h nofun
      have hsame : next startsIdentifier r' c = next startsIdentifier r c := by
        refine next_eq_of_lagging (fun _ => id) hnext hr' fun hwithin hbetween => ?_
        exact nomatch (hlag hwithin).symm.trans hbetween
      rw [filling, scan_cons, scan_nil, hsame]
      exact ih hdotted.of_cons hnext id h
    | package =>
      obtain ⟨rest, hrest⟩ := hdotted [] parts rfl
      exact absurd hrest (hp rest rfl)
    | simpleName =>
      rw [filling, scan_of_fits (fun _ => id) hsimple hr] at h
      rw [filling, scan_of_fits (fun _ => id) hsimple' hr']
      exact ih hdotted.of_cons nofun id h

end Scanning

section Resolving

open ClassName (WellFormed Spelled)
open Reading

variable {t : NameTemplate} {package simple : String}

def Accepted (t : NameTemplate) : Prop := WellFormed (t.resolve "pkg" "Simple")

/-- In the text of the template a dot follows the mark of the package wherever it stands. -/
def KeepsDots (t : NameTemplate) : Prop :=
  ∀ before after, t.text.toList = before ++ packageMark ++ after → ['.'] <+: after

theorem toList_resolve (hpackage : package ≠ "") (t : NameTemplate) (simple : String) :
    (t.resolve package simple).toList = fill package.toList simple.toList t.text.toList := by
  rw [resolve, if_neg hpackage, String.toList_ofList]
  rfl

theorem toList_resolve_default (t : NameTemplate) (simple : String) :
    (t.resolve "" simple).toList =
      fill [] simple.toList (replace (packageMark ++ ['.']) [] t.text.toList) := by
  rw [resolve, if_pos rfl, String.toList_ofList]
  rfl

theorem mem_of_mem_collapse {p : Part} {parts : List Part} (h : p ∈ collapse parts) :
    p ∈ parts := by
  induction parts using collapse.induct with
  | case1 => exact h
  | case2 parts ih => exact List.mem_cons_of_mem _ (List.mem_cons_of_mem _ (ih h))
  | case3 q parts hq ih =>
    rw [collapse.eq_3 q parts hq, List.mem_cons] at h
    exact List.mem_cons.2 (h.imp_right ih)

namespace Accepted

theorem exists_parts (h : t.Accepted) :
    ∃ parts, t.text.toList = spell parts ∧ Bracketed parts ∧
      Fits (parts.flatMap (filling "pkg".toList "Simple".toList)) := by
  rw [Accepted, ClassName.wellFormed_iff_fits, toList_resolve (by decide)] at h
  obtain ⟨parts, ht, hparts⟩ := NameTemplate.exists_parts h.brace_not_mem
  rw [ht, fill_spell hparts (by decide)] at h
  exact ⟨parts, ht, hparts, h⟩

theorem fits_sample : Fits "pkg".toList ∧ Fits "Simple".toList := by
  unfold Fits
  decide

theorem wellFormed (h : t.Accepted) (hpackage : WellFormed package)
    (hsimple : isIdentifier simple = true) : WellFormed (t.resolve package simple) := by
  have hne : package ≠ "" := by
    rintro rfl
    exact Bool.false_ne_true (hpackage "" (by decide))
  obtain ⟨parts, ht, hparts, hsample⟩ := h.exists_parts
  rw [ClassName.wellFormed_iff_fits] at hpackage
  have hsimple := ClassName.wellFormed_iff_fits.1 (ClassName.wellFormed_of_isIdentifier hsimple)
  rw [ClassName.wellFormed_iff_fits, toList_resolve hne, ht,
    fill_spell hparts hpackage.brace_not_mem]
  exact scan_filling fits_sample.1 hpackage fits_sample.2 hsimple hsample

theorem toList_default {parts : List Part} (ht : t.text.toList = spell parts)
    (hparts : Bracketed parts) (simple : String) :
    (t.resolve "" simple).toList = (collapse parts).flatMap (filling [] simple.toList) := by
  have hcollapse : Bracketed (collapse parts) := fun p hp => hparts p (mem_of_mem_collapse hp)
  rw [toList_resolve_default, ht, replace_dotted hparts, fill_spell hcollapse List.not_mem_nil]

theorem spelled (h : t.Accepted) (hsimple : isIdentifier simple = true) :
    Spelled (t.resolve "" simple) := by
  obtain ⟨parts, ht, hparts, hsample⟩ := h.exists_parts
  have hsimple := ClassName.wellFormed_iff_fits.1 (ClassName.wellFormed_of_isIdentifier hsimple)
  refine ClassName.spelled_of_scan ?_
  rw [toList_default ht hparts]
  exact scan_collapse (r := .between) fits_sample.1 fits_sample.2 hsimple nofun nofun hsample

theorem wellFormed_of_keepsDots (h : t.Accepted) (hdots : t.KeepsDots)
    (hsimple : isIdentifier simple = true) : WellFormed (t.resolve "" simple) := by
  obtain ⟨parts, ht, hparts, hsample⟩ := h.exists_parts
  have hsimple := ClassName.wellFormed_iff_fits.1 (ClassName.wellFormed_of_isIdentifier hsimple)
  have hdotted : Dotted parts := by
    rintro before after rfl
    by_contra hnone
    refine not_prefix_spell (by decide) (not_exists.1 hnone) []
      (hdots (spell before) (spell after) ?_)
    rw [ht, spell_append, spell_cons, List.append_assoc]
    rfl
  rw [ClassName.wellFormed_iff_fits, toList_default ht hparts]
  exact scan_collapse_of_dotted (r := .between) fits_sample.1 fits_sample.2 hsimple hdotted nofun
    nofun hsample

end Accepted

end Resolving

end NameTemplate

theorem templateFault?_eq_none_iff {path : List String} {kind template : String} :
    templateFault? path kind template = none ↔ NameTemplate.Accepted ⟨template⟩ := by
  simp [templateFault?, NameTemplate.Accepted, ClassName.WellFormed]

end StagedBuilder
