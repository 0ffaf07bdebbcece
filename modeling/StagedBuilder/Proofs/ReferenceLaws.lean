import StagedBuilder.Proofs.BaseLaws
import StagedBuilder.Proofs.CommentLaws
import StagedBuilder.Proofs.DottedNames
import StagedBuilder.Proofs.WildcardLaws

namespace StagedBuilder

namespace Text

theorem head?_trim {s : List Char} {c : Char} (h : (trim s).head? = some c) :
    isBlank c = false := by
  obtain ⟨r, -, hs⟩ := exists_trimEnd (trimStart s)
  apply head_trimStart (s := s)
  rw [hs, List.head?_append, ← trim, h, Option.some_or]

theorem getLast?_trim {s : List Char} {c : Char} (h : (trim s).getLast? = some c) :
    isBlank c = false := by
  have := List.head?_dropWhile_not isBlank (trimStart s).reverse
  rw [trim, trimEnd, List.getLast?_reverse] at h
  simpa [h] using this

end Text

open Text

namespace ClassName.WellFormed

variable {name : String}

theorem toList_ne (h : WellFormed name) : name.toList ≠ [] := by
  intro hnil
  have hread := wellFormed_iff_fits.1 h
  rw [Fits, hnil] at hread
  cases hread

theorem mem (h : WellFormed name) {c : Char} (hc : c ∈ name.toList) :
    c = '.' ∨ continuesIdentifier c = true := by
  have hread : Reading.scan startsIdentifier .between name.toList ≠ .refused := by
    rw [wellFormed_iff_fits.1 h]
    nofun
  exact forall_of_scan hread c hc

theorem getLast?_ne (h : WellFormed name) : name.toList.getLast? ≠ some '.' := by
  intro hlast
  obtain ⟨front, hfront⟩ := List.getLast?_eq_some_iff.1 hlast
  have hread := wellFormed_iff_fits.1 h
  rw [Fits, hfront, Reading.scan_append] at hread
  cases hfront : Reading.scan startsIdentifier .between front with
  | refused => simp [hfront, Reading.next] at hread
  | between => simp [hfront, Reading.next, startsIdentifier_dot] at hread
  | within => simp [hfront, Reading.next] at hread

end ClassName.WellFormed

namespace Reference

inductive IsDimensions : List Char → Prop
  | nil : IsDimensions []
  | array {d : List Char} (later : IsDimensions d) : IsDimensions ('[' :: ']' :: d)
  | variadic {d : List Char} (later : IsDimensions d) : IsDimensions ('.' :: '.' :: '.' :: d)

structure IsCore (s : List Char) : Prop where
  ne_nil : s ≠ []
  first : ∀ c, s.head? = some c → isBlank c = false
  last : ∀ c, s.getLast? = some c → isBlank c = false ∧ c ≠ ']' ∧ c ≠ '.'
  unbound : ¬ ['?', ' '] <+: s

section Parts

variable {s d : List Char}

theorem IsDimensions.forall_mem {P : Char → Prop} (h : IsDimensions d) (hopen : P '[')
    (hclose : P ']') (hdot : P '.') : ∀ c ∈ d, P c := by
  induction h with
  | nil => nofun
  | array later ih => exact List.forall_mem_cons.2 ⟨hopen, List.forall_mem_cons.2 ⟨hclose, ih⟩⟩
  | variadic later ih =>
    exact List.forall_mem_cons.2 ⟨hdot, List.forall_mem_cons.2 ⟨hdot,
      List.forall_mem_cons.2 ⟨hdot, ih⟩⟩⟩

theorem IsDimensions.visible (h : IsDimensions d) : ∀ c ∈ d, isBlank c = false :=
  h.forall_mem (by decide) (by decide) (by decide)

theorem takeDimensions_reverse_append (h : IsDimensions d) (s : List Char) :
    takeDimensions (d.reverse ++ s) =
      (d.reverse ++ (takeDimensions s).1, (takeDimensions s).2) := by
  induction h generalizing s with
  | nil => rfl
  | array later ih =>
    rw [List.reverse_cons, List.reverse_cons, List.append_assoc, List.append_assoc, ih]
    simp [takeDimensions]
  | variadic later ih =>
    simp only [List.reverse_cons, List.append_assoc, ih]
    simp [takeDimensions]

theorem takeDimensions_rest (s : List Char) :
    takeDimensions (takeDimensions s).2 = ([], (takeDimensions s).2) := by
  fun_induction takeDimensions s with
  | case1 cs d rest heq ih => simpa [heq] using ih
  | case2 cs d rest heq ih => simpa [heq] using ih
  | case3 s harray hvariadic =>
    rw [takeDimensions]
    · exact harray
    · exact hvariadic

theorem IsDimensions.append {d' : List Char} (h : IsDimensions d) (h' : IsDimensions d') :
    IsDimensions (d ++ d') := by
  induction h with
  | nil => exact h'
  | array later ih => exact .array ih
  | variadic later ih => exact .variadic ih

theorem isDimensions_takeDimensions (s : List Char) :
    IsDimensions (takeDimensions s).1.reverse := by
  fun_induction takeDimensions s with
  | case1 cs d rest heq ih => simpa [heq] using ih.append (.array .nil)
  | case2 cs d rest heq ih => simpa [heq] using ih.append (.variadic .nil)
  | case3 => exact .nil

theorem exists_dimensions (s : List Char) :
    ∃ n d, s = n ++ d ∧ IsDimensions d ∧ takeDimensions n.reverse = ([], n.reverse) := by
  refine ⟨(takeDimensions s.reverse).2.reverse, (takeDimensions s.reverse).1.reverse, ?_,
    isDimensions_takeDimensions _, ?_⟩
  · rw [← List.reverse_append, takeDimensions_append, List.reverse_reverse]
  · rw [List.reverse_reverse, takeDimensions_rest]

theorem isDimensions_dimensions (reference : String) :
    IsDimensions (ofText reference).dimensions.toList := by
  have hdimensions : (ofText reference).dimensions =
      .ofList (takeDimensions (splitBound (trim reference.toList)).2.reverse).1.reverse := rfl
  rw [hdimensions, String.toList_ofList]
  exact isDimensions_takeDimensions _

theorem bound_mem (reference : String) :
    (ofText reference).bound = "" ∨ (ofText reference).bound ∈ wildcardBounds :=
  or_iff_not_imp_left.2 fun h => (bound_of_ne h).1

theorem takeDimensions_of_head (h : ∀ c, s.head? = some c → c ≠ ']' ∧ c ≠ '.') :
    takeDimensions s = ([], s) := by
  unfold takeDimensions
  split
  · exact absurd rfl (h _ rfl).1
  · exact absurd rfl (h _ rfl).2
  · rfl

theorem IsCore.takeDimensions (h : IsCore s) (hd : IsDimensions d) :
    takeDimensions (s ++ d).reverse = (d.reverse, s.reverse) := by
  have hcore : Reference.takeDimensions s.reverse = ([], s.reverse) := by
    apply takeDimensions_of_head
    rw [List.head?_reverse]
    exact fun c hc => (h.last c hc).2
  rw [List.reverse_append, takeDimensions_reverse_append hd, hcore, List.append_nil]

theorem IsCore.unbound_append (h : IsCore s) {rest : List Char} (hrest : rest.head? ≠ some ' ') :
    ¬ ['?', ' '] <+: s ++ rest := by
  intro hwild
  obtain ⟨c, s', rfl⟩ := List.exists_cons_of_ne_nil h.ne_nil
  cases s' with
  | nil =>
    obtain ⟨later, hlater⟩ := hwild
    obtain ⟨-, rfl⟩ := List.cons.inj hlater
    exact hrest rfl
  | cons c' s' =>
    apply h.unbound
    exact List.prefix_of_prefix_length_le hwild (List.prefix_append _ rest) (by simp)

theorem IsDimensions.head?_ne (h : IsDimensions d) : d.head? ≠ some ' ' := by
  cases h with
  | nil => decide
  | array => simp
  | variadic => simp

theorem IsCore.splitBound (h : IsCore s) (hd : IsDimensions d) :
    Reference.splitBound (s ++ d) = ([], s ++ d) := by
  have hnone : wildcardBounds.find? (fun b => b.toList.isPrefixOf (s ++ d)) = none := by
    rw [List.find?_eq_none]
    intro b hb hprefix
    have hbounds : ∀ b ∈ wildcardBounds, ['?', ' '] <+: b.toList := by decide
    exact h.unbound_append hd.head?_ne
      ((hbounds b hb).trans (List.isPrefixOf_iff_prefix.1 hprefix))
  rw [Reference.splitBound, hnone]

theorem first_bound_append {b : String} (hb : b ∈ wildcardBounds) (s : List Char) :
    ∀ c, (b.toList ++ s).head? = some c → isBlank c = false := by
  have hbounds : ∀ b ∈ wildcardBounds, b.toList.head? = some '?' := by decide
  intro c hc
  rw [List.head?_append, hbounds b hb] at hc
  obtain rfl := Option.some.inj hc
  decide

theorem splitBound_append {b : String} (hb : b ∈ wildcardBounds) (s : List Char) :
    splitBound (b.toList ++ s) = (b.toList, trimStart s) := by
  have hfind : wildcardBounds.find? (fun w => w.toList.isPrefixOf (b.toList ++ s)) = some b := by
    simp only [wildcardBounds, List.mem_cons, List.not_mem_nil, or_false] at hb
    rcases hb with rfl | rfl
    · rfl
    · rfl
  have hlength : b.length = b.toList.length := String.length_toList.symm
  rw [splitBound, hfind]
  simp only [hlength, List.drop_left]

end Parts

section Joined

variable {bound : String} {core d : List Char}

theorem IsCore.first_append (h : IsCore core) (d : List Char) :
    ∀ c, (core ++ d).head? = some c → isBlank c = false := by
  rw [List.head?_append_of_ne_nil _ h.ne_nil]
  exact h.first

theorem IsCore.trim (hcore : IsCore core) (hbound : bound = "" ∨ bound ∈ wildcardBounds)
    (hd : IsDimensions d) : trim (bound.toList ++ core ++ d) = bound.toList ++ core ++ d := by
  apply trim_eq_self
  · rcases hbound with rfl | hbound
    · exact hcore.first_append d
    · rw [List.append_assoc]
      exact first_bound_append hbound _
  · intro c hc
    rw [List.getLast?_append] at hc
    cases hd' : d.getLast? with
    | some c' =>
      rw [hd'] at hc
      obtain rfl := Option.some.inj hc
      exact hd.visible _ (List.mem_of_getLast? hd')
    | none =>
      rw [hd', Option.none_or, List.getLast?_append_of_ne_nil _ hcore.ne_nil] at hc
      exact (hcore.last c hc).1

theorem IsCore.ofText (hcore : IsCore core) (hbound : bound = "" ∨ bound ∈ wildcardBounds)
    (hd : IsDimensions d) :
    ofText (.ofList (bound.toList ++ core ++ d)) = ⟨bound, .ofList core, .ofList d⟩ := by
  have hparts : Reference.splitBound (bound.toList ++ core ++ d) = (bound.toList, core ++ d) := by
    rcases hbound with rfl | hbound
    · exact hcore.splitBound hd
    · rw [List.append_assoc, splitBound_append hbound,
        trimStart_eq_self (hcore.first_append d)]
  rw [Reference.ofText, String.toList_ofList, hcore.trim hbound hd, hparts]
  simp only [hcore.takeDimensions hd, List.reverse_reverse, String.ofList_toList]

end Joined

def IsName (name : String) : Prop := ClassName.WellFormed name ∨ name = "?"

structure Spelling where
  bound : String
  name : String
  dimensions : String
  isBound : bound = "" ∨ bound ∈ wildcardBounds
  isName : IsName name
  isDimensions : IsDimensions dimensions.toList

def Spelling.text (r : Spelling) : String := r.bound ++ r.name ++ r.dimensions

section Names

variable {name : String}

theorem IsName.forall_mem {P : Char → Prop} (h : IsName name)
    (hletter : ∀ c, continuesIdentifier c = true → P c) (hdot : P '.') (hmark : P '?') :
    ∀ c ∈ name.toList, P c := by
  rcases h with h | rfl
  · intro c hc
    rcases h.mem hc with rfl | hc
    · exact hdot
    · exact hletter c hc
  · exact List.forall_mem_singleton.2 hmark

theorem IsName.isCore (h : IsName name) : IsCore name.toList := by
  have hvisible := h.forall_mem (P := (isBlank · = false)) (fun _ => not_isBlank_of_continues)
    (by decide) (by decide)
  have hbracket : ']' ∉ name.toList := by
    have hletter : continuesIdentifier ']' = false := by decide +kernel
    intro hmem
    refine h.forall_mem (P := (· ≠ ']')) ?_ (by decide) (by decide) _ hmem rfl
    rintro _ hc rfl
    rw [hletter] at hc
    cases hc
  have hdot : name.toList.getLast? ≠ some '.' := by
    rcases h with h | rfl
    · exact h.getLast?_ne
    · decide
  refine ⟨?_, fun c hc => hvisible c (List.mem_of_head? hc), fun c hc => ?_, ?_⟩
  · rcases h with h | rfl
    · exact h.toList_ne
    · decide
  · have hmem := List.mem_of_getLast? hc
    exact ⟨hvisible c hmem, fun heq => hbracket (heq ▸ hmem), fun heq => hdot (heq ▸ hc)⟩
  · rintro ⟨rest, hrest⟩
    exact absurd (hvisible ' ' (by simp [← hrest])) (by decide)

end Names

namespace Spelling

theorem toList_text (r : Spelling) :
    r.text.toList = r.bound.toList ++ r.name.toList ++ r.dimensions.toList := by
  rw [text, String.toList_append, String.toList_append]

theorem ofText_text (r : Spelling) : ofText r.text = ⟨r.bound, r.name, r.dimensions⟩ := by
  have hparts := r.isName.isCore.ofText r.isBound r.isDimensions
  rwa [← toList_text, String.ofList_toList, String.ofList_toList, String.ofList_toList] at hparts

end Spelling

end Reference

end StagedBuilder
