import StagedBuilder.Manifest.Fault
import StagedBuilder.Proofs.TypeGrammar

/-!
Reading a type text by byte offsets. An offset is where a character begins or the text ends, or
else nothing can be cut there; the offsets at which a type text is cut are all of the first kind.
-/

namespace StagedBuilder.Text

def cutAt? : Nat → List Char → Option (List Char × List Char)
  | 0, s => some ([], s)
  | _ + 1, [] => none
  | n + 1, c :: s =>
    if c.utf8Size ≤ n + 1 then (cutAt? (n + 1 - c.utf8Size) s).map fun (l, r) => (c :: l, r)
    else none

def slice? (s : List Char) (start stop : Nat) : Option (List Char) := do
  let (front, _) ← cutAt? stop s
  let (_, part) ← cutAt? start front
  return part

def offset? (c : Char) (offset : Nat) : List Char → Option Nat
  | [] => none
  | d :: s => if d = c then some offset else offset? c (offset + d.utf8Size) s

theorem byteLength_append (s t : List Char) :
    byteLength (s ++ t) = byteLength s + byteLength t := by
  induction s with
  | nil => simp [byteLength]
  | cons c s ih => simp [byteLength, ih, Nat.add_assoc]

theorem cutAt?_append (l r : List Char) : cutAt? (byteLength l) (l ++ r) = some (l, r) := by
  induction l with
  | nil => simp [byteLength, cutAt?]
  | cons c l ih =>
    obtain ⟨n, hn⟩ : ∃ n, c.utf8Size + byteLength l = n + 1 :=
      Nat.exists_eq_succ_of_ne_zero (by have := c.utf8Size_pos; omega)
    have hrest : n + 1 - c.utf8Size = byteLength l := by omega
    rw [byteLength, List.cons_append, hn, cutAt?, if_pos (by omega), hrest, ih]
    rfl

theorem cutAt?_eq_some_iff {n : Nat} {s l r : List Char} :
    cutAt? n s = some (l, r) ↔ s = l ++ r ∧ byteLength l = n := by
  refine ⟨?_, ?_⟩
  · intro h
    induction s generalizing n l r with
    | nil =>
      cases n with
      | zero => simp_all [cutAt?, byteLength]
      | succ n => simp [cutAt?] at h
    | cons c s ih =>
      cases n with
      | zero => simp_all [cutAt?, byteLength]
      | succ n =>
        rw [cutAt?] at h
        split_ifs at h with hc
        obtain ⟨⟨l', r'⟩, hcut, heq⟩ := Option.map_eq_some_iff.1 h
        obtain ⟨rfl, rfl⟩ := Prod.mk.inj heq
        obtain ⟨rfl, hlength⟩ := ih hcut
        exact ⟨rfl, by rw [byteLength]; omega⟩
  · rintro ⟨rfl, rfl⟩
    exact cutAt?_append l r

theorem slice?_eq_some_iff {s part : List Char} {start stop : Nat} :
    slice? s start stop = some part ↔
      ∃ before after, s = before ++ part ++ after ∧ byteLength before = start ∧
        byteLength (before ++ part) = stop := by
  simp only [slice?, bind, pure, Option.bind_eq_some_iff, Option.some.injEq, Prod.exists,
    cutAt?_eq_some_iff]
  refine ⟨?_, ?_⟩
  · rintro ⟨_, after, ⟨rfl, rfl⟩, before, _, ⟨rfl, rfl⟩, rfl⟩
    exact ⟨before, after, rfl, rfl, rfl⟩
  · rintro ⟨before, after, rfl, rfl, rfl⟩
    exact ⟨_, after, ⟨rfl, rfl⟩, before, part, ⟨rfl, rfl⟩, rfl⟩

theorem offset?_append {c : Char} {before : List Char} (h : c ∉ before) (offset : Nat)
    (after : List Char) :
    offset? c offset (before ++ c :: after) = some (offset + byteLength before) := by
  induction before generalizing offset with
  | nil => simp [offset?, byteLength]
  | cons d before ih =>
    rw [List.mem_cons, not_or] at h
    rw [List.cons_append, offset?, if_neg (Ne.symm h.1), ih h.2, byteLength, Nat.add_assoc]

theorem offset?_of_not_mem {c : Char} {s : List Char} (h : c ∉ s) (offset : Nat) :
    offset? c offset s = none := by
  induction s generalizing offset with
  | nil => rfl
  | cons d s ih =>
    rw [List.mem_cons, not_or] at h
    rw [offset?, if_neg (Ne.symm h.1), ih h.2]

end StagedBuilder.Text

namespace StagedBuilder.TypeExpr

open Text

def argumentRanges : (depth start offset : Nat) → List Char → List (Nat × Nat)
  | _, start, offset, [] => [(start, offset)]
  | depth, start, offset, c :: s =>
    if c = ',' ∧ depth = 0 then
      (start, offset) :: argumentRanges depth (offset + 1) (offset + 1) s
    else argumentRanges (depthAfter depth c) start (offset + c.utf8Size) s

def divideAt (text : List Char) : Option (Except TypeFault (List Char × List (List Char))) :=
  match bracketFault? 0 text with
  | some f => some (.error f)
  | none =>
    match offset? '<' 0 text with
    | none => some (.ok (text, []))
    | some i =>
      if text.getLast? ≠ some '>' then some (.error .textAfterClose)
      else do
        let base ← slice? text 0 i
        if trim base = [] then return .error .missingBase
        let inner ← slice? text (i + 1) (byteLength text - 1)
        let args ← (argumentRanges 0 0 0 inner).mapM fun range => slice? inner range.1 range.2
        return .ok (trim base, args)

theorem mapM_argumentRanges {text rest : List Char} {start offset : Nat}
    (depth : Nat) (before current : List Char) (htext : text = before ++ current ++ rest)
    (hstart : byteLength before = start)
    (hoffset : byteLength (before ++ current) = offset) :
    (argumentRanges depth start offset rest).mapM (fun range => slice? text range.1 range.2) =
      some ((splitArguments depth rest).modifyHead (current ++ ·)) := by
  have hslice : slice? text start offset = some current :=
    slice?_eq_some_iff.2 ⟨before, rest, htext, hstart, hoffset⟩
  induction rest generalizing depth before current start offset with
  | nil => simp [argumentRanges, splitArguments, hslice]
  | cons c rest ih =>
    by_cases hc : c = ',' ∧ depth = 0
    · obtain ⟨rfl, rfl⟩ := hc
      have hnext : text = before ++ current ++ [','] ++ [] ++ rest := by simp [htext]
      have hlength : byteLength (before ++ current ++ [',']) = offset + 1 := by
        rw [byteLength_append, hoffset]
        rfl
      have hrest := ih 0 _ [] hnext hlength (by rw [List.append_nil, hlength])
        (slice?_eq_some_iff.2 ⟨_, rest, hnext, hlength, by rw [List.append_nil, hlength]⟩)
      obtain ⟨a, as, hs⟩ := List.exists_cons_of_ne_nil (splitArguments_ne_nil 0 rest)
      rw [argumentRanges, if_pos ⟨rfl, rfl⟩, List.mapM_cons, hslice, hrest, splitArguments_comma,
        hs]
      simp
    · have hnext : text = before ++ (current ++ [c]) ++ rest := by simp [htext]
      have hlength : byteLength (before ++ (current ++ [c])) = offset + c.utf8Size := by
        rw [← List.append_assoc, byteLength_append, hoffset]
        rfl
      have hrest := ih (depthAfter depth c) before _ hnext hstart hlength
        (slice?_eq_some_iff.2 ⟨_, rest, hnext, hstart, hlength⟩)
      obtain ⟨a, as, hs⟩ :=
        List.exists_cons_of_ne_nil (splitArguments_ne_nil (depthAfter depth c) rest)
      rw [argumentRanges, if_neg hc, hrest, splitArguments_cons hc hs, hs]
      simp

theorem slice?_base (base rest : List Char) :
    slice? (base ++ '<' :: rest) 0 (0 + byteLength base) = some base :=
  slice?_eq_some_iff.2 ⟨[], _, rfl, rfl, (Nat.zero_add _).symm⟩

theorem slice?_inner (base inner : List Char) :
    slice? (base ++ '<' :: (inner ++ ['>'])) (0 + byteLength base + 1)
      (byteLength (base ++ '<' :: (inner ++ ['>'])) - 1) = some inner := by
  have hopen : byteLength ['<'] = 1 := rfl
  have hclose : byteLength ['>'] = 1 := rfl
  have htext : base ++ '<' :: (inner ++ ['>']) = base ++ ['<'] ++ inner ++ ['>'] := by simp
  refine slice?_eq_some_iff.2 ⟨base ++ ['<'], ['>'], htext, ?_, ?_⟩
  · rw [byteLength_append, hopen, Nat.zero_add]
  · rw [htext, byteLength_append (base ++ ['<'] ++ inner), hclose, Nat.add_sub_cancel]

theorem mapM_slice?_arguments (inner : List Char) :
    (argumentRanges 0 0 0 inner).mapM (fun range => slice? inner range.1 range.2) =
      some (splitArguments 0 inner) := by
  have h : (argumentRanges 0 0 0 inner).mapM (fun range => slice? inner range.1 range.2) =
      some ((splitArguments 0 inner).modifyHead ([] ++ ·)) :=
    mapM_argumentRanges 0 [] [] rfl rfl rfl
  obtain ⟨a, as, hs⟩ := List.exists_cons_of_ne_nil (splitArguments_ne_nil 0 inner)
  simpa [hs] using h

theorem divideAt_eq (text : List Char) : divideAt text = some (divide text) := by
  rw [divideAt, divide]
  cases bracketFault? 0 text with
  | some f => rfl
  | none =>
    by_cases hopen : '<' ∈ text
    · obtain ⟨base, rest, rfl, hbefore⟩ := List.eq_append_cons_of_mem hopen
      obtain ⟨htake, hdrop⟩ := takeWhile_open hbefore rest
      rw [offset?_append hbefore, hdrop]
      dsimp only
      rw [htake]
      rcases List.eq_nil_or_concat rest with rfl | ⟨inner, c, rfl⟩
      · simp
      · rw [List.concat_eq_append]
        by_cases hc : c = '>'
        · rw [hc, slice?_base, slice?_inner, if_neg (by simp [List.getLast?_cons]),
            if_neg (by simp), List.dropLast_concat]
          simp only [bind, Option.bind_some, mapM_slice?_arguments]
          split_ifs <;> rfl
        · rw [if_pos (by simp [List.getLast?_cons, hc]), if_pos (by simp [hc])]
    · rw [offset?_of_not_mem hopen, dropWhile_closed hopen]

/-- Reads as `parseChars` does, from parts that are taken by their offsets. -/
def parseAt (s : List Char) : ExceptT MalformedType Option TypeExpr :=
  match _h : divideAt (trim s) with
  | none => ExceptT.mk none
  | some (.error f) => throw ⟨.ofList (trim s), f⟩
  | some (.ok (base, args)) => do
    let args ← args.attach.mapM fun ⟨a, _⟩ =>
      if trim a = [] then throw ⟨.ofList (trim s), .emptyArgument⟩ else parseAt a
    return .node (.ofList base) args
termination_by s.length
decreasing_by
  rw [divideAt_eq, Option.some.injEq] at _h
  exact Nat.lt_of_lt_of_le (length_lt_of_divide _h ‹_›) (length_trim_le s)

theorem mapM_of_all_some {f : List Char → ExceptT MalformedType Option TypeExpr}
    {g : List Char → Except MalformedType TypeExpr} {as : List (List Char)}
    (h : ∀ a ∈ as, f a = ExceptT.mk (some (g a))) :
    as.mapM f = ExceptT.mk (some (as.mapM g)) := by
  induction as with
  | nil => rfl
  | cons a as ih =>
    obtain ⟨ha, has⟩ := List.forall_mem_cons.1 h
    rw [List.mapM_cons, List.mapM_cons, ha, ih has]
    cases g a with
    | error e => rfl
    | ok t => cases as.mapM g <;> rfl

def argumentAt (text a : List Char) : ExceptT MalformedType Option TypeExpr :=
  if trim a = [] then throw ⟨.ofList text, .emptyArgument⟩ else parseAt a

/-- Reading by offsets cuts nothing outside of the text or inside a character. -/
theorem parseAt_eq (s : List Char) : parseAt s = ExceptT.mk (some (parseChars s)) := by
  induction s using parseChars.induct with
  | case1 s f hdivide =>
    rw [parseChars_of_fault hdivide, parseAt]
    split <;> simp_all [divideAt_eq]
    rfl
  | case2 s base args hdivide ih =>
    have hargs : ∀ a ∈ args, argumentAt (trim s) a =
        ExceptT.mk (some (parseArgument (trim s) a)) := by
      intro a ha
      rw [argumentAt, parseArgument, ih a ha]
      split_ifs <;> rfl
    rw [parseChars_of_divided hdivide, parseAt]
    split
    · simp_all [divideAt_eq]
    · simp_all [divideAt_eq]
    · rename_i base' args' hdivide'
      rw [divideAt_eq, hdivide, Option.some.injEq, Except.ok.injEq, Prod.mk.injEq] at hdivide'
      obtain ⟨rfl, rfl⟩ := hdivide'
      rw [List.mapM_subtype (g := argumentAt (trim s)) fun a ha => rfl, List.unattach_attach,
        mapM_of_all_some hargs]
      cases args.mapM (parseArgument (trim s)) <;> rfl

def IsGeneric (text base : List Char) (args : List (List Char)) : Prop :=
  IsDivision text base args ∧ ∀ a ∈ args, ∃ t, parse (.ofList a) = .ok t

section Generic

variable {text base base' : List Char} {args args' : List (List Char)}

theorem parse_ofList (a : List Char) : parse (.ofList a) = parseChars a := by
  rw [parse, String.toList_ofList]

theorem IsGeneric.divide (h : IsGeneric text base args) :
    TypeExpr.divide text = .ok (trim base, args) := by
  refine h.1.divide ?_
  intro a ha
  obtain ⟨t, ht⟩ := h.2 a ha
  exact balanced_of_parse ((parse_ofList a).symm.trans ht)

theorem IsGeneric.not_plain (h : IsGeneric text base args) : ¬IsPlain text := by
  intro hplain
  apply hplain.1
  rw [h.1.shape]
  simp

theorem IsGeneric.unique (h : IsGeneric text base args) (h' : IsGeneric text base' args') :
    base' = base ∧ args' = args := by
  have hbase : text.takeWhile (· ≠ '<') = base := by
    rw [h.1.shape]
    exact (takeWhile_open h.1.plain.1 _).1
  have hbase' : text.takeWhile (· ≠ '<') = base' := by
    rw [h'.1.shape]
    exact (takeWhile_open h'.1.plain.1 _).1
  have hargs := h'.divide.symm.trans h.divide
  exact ⟨hbase'.symm.trans hbase, (Prod.mk.inj (Except.ok.inj hargs)).2⟩

theorem IsGeneric.parse {s : String} (h : IsGeneric (trim s.toList) base args) :
    ∃ trees, List.Forall₂ (fun a t => TypeExpr.parse (.ofList a) = .ok t) args trees ∧
      TypeExpr.parse s = .ok (.node (.ofList (trim base)) trees) := by
  have hread (a : List Char) (ha : a ∈ args) : ∃ t, parseArgument (trim s.toList) a = .ok t := by
    obtain ⟨t, ht⟩ := h.2 a ha
    exact ⟨t, (parseArgument_eq_ok_iff _).2 ⟨h.1.visible a ha, (parse_ofList a).symm.trans ht⟩⟩
  cases htrees : args.mapM (parseArgument (trim s.toList)) with
  | error e =>
    obtain ⟨before, a, after, rfl, -, herror⟩ := mapM_eq_error_iff.1 htrees
    obtain ⟨t, ht⟩ := hread a (by simp)
    rw [herror] at ht
    cases ht
  | ok trees =>
    refine ⟨trees, ?_, ?_⟩
    · refine (mapM_eq_ok_iff.1 htrees).imp ?_
      intro a t ht
      exact (parse_ofList a).trans ((parseArgument_eq_ok_iff _).1 ht).2
    · rw [TypeExpr.parse, parseChars_of_divided h.divide, htrees]
      rfl

theorem plain_or_generic {s : String} {t : TypeExpr} (h : TypeExpr.parse s = .ok t) :
    IsPlain (trim s.toList) ∨ ∃ base args, IsGeneric (trim s.toList) base args := by
  cases denotes_of_parse h with
  | leaf plain => exact .inl plain
  | @node _ base parts division args =>
    refine .inr ⟨base, parts.map Prod.fst, division, ?_⟩
    rw [List.forall_mem_map]
    intro p hp
    exact ⟨p.2, (parse_ofList p.1).trans (parse_of_denotes (args p hp))⟩

end Generic

/--
Reading accepts exactly the grammar. A text without brackets is a type as it stands; any other is
one if it is a base and arguments that are types, with all their commas inside of their own
brackets, which is then so in one way only, and no part is cut outside of the text or inside a
character.
-/
theorem parse_follows_grammar (s : String) :
    (∀ t, parse s = .ok t ↔ Denotes s.toList t) ∧
    ((∃ t, parse s = .ok t) ↔
      IsPlain (trim s.toList) ∨ ∃ base args, IsGeneric (trim s.toList) base args) ∧
    (IsPlain (trim s.toList) → parse s = .ok (leaf (.ofList (trim s.toList)))) ∧
    (∀ base args, IsGeneric (trim s.toList) base args →
      ¬IsPlain (trim s.toList) ∧
      (∀ base' args', IsGeneric (trim s.toList) base' args' → base' = base ∧ args' = args) ∧
      ∃ trees, List.Forall₂ (fun a t => parse (.ofList a) = .ok t) args trees ∧
        parse s = .ok (.node (.ofList (trim base)) trees)) ∧
    parseAt s.toList = ExceptT.mk (some (parse s)) := by
  have hleaf (hplain : IsPlain (trim s.toList)) :
      parse s = .ok (leaf (.ofList (trim s.toList))) := parse_of_denotes (.leaf hplain)
  refine ⟨fun t => parseChars_iff_denotes, ⟨?_, ?_⟩, hleaf, ?_, parseAt_eq s.toList⟩
  · rintro ⟨t, ht⟩
    exact plain_or_generic ht
  · rintro (hplain | ⟨base, args, h⟩)
    · exact ⟨_, hleaf hplain⟩
    · obtain ⟨trees, -, ht⟩ := h.parse
      exact ⟨_, ht⟩
  · intro base args h
    exact ⟨h.not_plain, fun base' args' h' => h.unique h', h.parse⟩

end StagedBuilder.TypeExpr
