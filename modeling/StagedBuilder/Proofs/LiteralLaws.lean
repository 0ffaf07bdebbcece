import Mathlib.Data.List.Basic
import StagedBuilder.Toml.Quoted

/-!
String literals as they are read by a Java compiler: Unicode escapes are replaced in the whole text,
and then escape sequences in the literal. The value of a literal is a sequence of UTF-16 code units;
it is shorter than the text between the quotes wherever that has a backslash.
-/

namespace StagedBuilder.Java.Literal

open Toml (hexDigit?)

def units (c : Char) : List Nat :=
  if c.toNat < 0x10000 then [c.toNat]
  else [0xD800 + (c.toNat - 0x10000) / 0x400, 0xDC00 + (c.toNat - 0x10000) % 0x400]

inductive Escape
  | outside
  | backslash
  | code (digits value : Nat)

def Escape.step : Escape → Char → Option (List Nat × Escape)
  | .outside, c => some (if c = '\\' then ([], .backslash) else (units c, .outside))
  | .backslash, c => some (if c = 'u' then ([], .code 0 0) else (0x5C :: units c, .outside))
  | .code digits value, c =>
    if digits = 0 ∧ c = 'u' then some ([], .code 0 0)
    else (hexDigit? c).map fun d =>
      if digits = 3 then ([16 * value + d], .outside)
      else ([], .code (digits + 1) (16 * value + d))

def Escape.last : Escape → Option (List Nat)
  | .outside => some []
  | .backslash => some [0x5C]
  | .code _ _ => none

def translate : Escape → List Char → Option (List Nat)
  | e, [] => e.last
  | e, c :: cs =>
    match e.step c with
    | none => none
    | some (out, next) => (translate next cs).map (out ++ ·)

inductive Place
  | plain
  | escaped
  | octal (value more : Nat)

def simpleEscapes : List (Nat × Nat) := [
  (0x62, 0x08), (0x73, 0x20), (0x74, 0x09), (0x6E, 0x0A), (0x66, 0x0C), (0x72, 0x0D),
  (0x22, 0x22), (0x27, 0x27), (0x5C, 0x5C)]

def octalDigit? (u : Nat) : Option Nat := if 0x30 ≤ u ∧ u ≤ 0x37 then some (u - 0x30) else none

def plainStep (u : Nat) : Option (List Nat × Option Place) :=
  if u = 0x22 then some ([], none)
  else if u = 0x0A ∨ u = 0x0D then none
  else if u = 0x5C then some ([], some .escaped)
  else some ([u], some .plain)

def Place.step : Place → Nat → Option (List Nat × Option Place)
  | .plain, u => plainStep u
  | .escaped, u =>
    match simpleEscapes.lookup u with
    | some v => some ([v], some .plain)
    | none => (octalDigit? u).map fun d => ([], some (.octal d (if d ≤ 3 then 2 else 1)))
  | .octal value more, u =>
    match if more = 0 then none else octalDigit? u with
    | some d => some ([], some (.octal (8 * value + d) (more - 1)))
    | none => (plainStep u).map fun (out, next) => (value :: out, next)

def read : Place → List Nat → Option (List Nat)
  | _, [] => none
  | p, u :: us =>
    match p.step u with
    | none => none
    | some (out, none) => if us = [] then some out else none
    | some (out, some next) => (read next us).map (out ++ ·)

/-- The value of a text that is one string literal. -/
def value? (text : String) : Option (List Nat) :=
  match translate .outside text.toList with
  | some (0x22 :: us) => read .plain us
  | _ => none

example : value? "\"\\u0041\\t\\\\u\\1011\"" = some [0x41, 0x09, 0x5C, 0x75, 0x41, 0x31] := by
  decide

def valueOf (text : String) : List Nat := text.toList.flatMap units

section Translation

variable {e : Escape} {c : Char} {cs : List Char} {us out : List Nat}

def Escape.pending : Escape → Nat
  | .backslash => 1
  | _ => 0

theorem length_units (c : Char) : 0 < (units c).length := by
  unfold units
  split_ifs <;> simp

theorem Escape.length_step {next : Escape} (h : e.step c = some (out, next)) :
    out.length + next.pending ≤ (units c).length + e.pending := by
  have hunits := length_units c
  cases e with
  | outside =>
    have hpair := Option.some.inj h
    split_ifs at hpair
    all_goals
      obtain ⟨rfl, rfl⟩ := Prod.mk.inj hpair
      simp only [Escape.pending, List.length_nil]
      omega
  | backslash =>
    have hpair := Option.some.inj h
    split_ifs at hpair
    all_goals
      obtain ⟨rfl, rfl⟩ := Prod.mk.inj hpair
      simp [Escape.pending]
  | code digits value =>
    rw [Escape.step] at h
    split_ifs at h
    · obtain ⟨rfl, rfl⟩ := Prod.mk.inj (Option.some.inj h)
      simp [Escape.pending]
    all_goals
      obtain ⟨d, -, hpair⟩ := Option.map_eq_some_iff.1 h
      obtain ⟨rfl, rfl⟩ := Prod.mk.inj hpair
      simp only [Escape.pending, List.length_singleton, List.length_nil]
      omega

theorem length_translate_le (h : translate e cs = some us) :
    us.length ≤ (cs.flatMap units).length + e.pending := by
  induction cs generalizing e us with
  | nil =>
    cases e with
    | outside | backslash =>
      obtain rfl := Option.some.inj h
      exact Nat.le_refl _
    | code => cases h
  | cons c cs ih =>
    rw [translate] at h
    split at h
    · cases h
    · next out next hstep =>
      obtain ⟨vs, hvs, rfl⟩ := Option.map_eq_some_iff.1 h
      have hwritten := Escape.length_step hstep
      have hrest := ih hvs
      rw [List.length_append, List.flatMap_cons, List.length_append]
      omega

theorem translate_of_ne (h : c ≠ '\\') :
    translate .outside (c :: cs) = (translate .outside cs).map (units c ++ ·) := by
  simp only [translate, Escape.step, if_neg h]

theorem translate_of_not_mem (h : '\\' ∉ cs) :
    translate .outside cs = some (cs.flatMap units) := by
  induction cs with
  | nil => rfl
  | cons c cs ih =>
    rw [List.mem_cons, not_or] at h
    rw [translate_of_ne (Ne.symm h.1), ih h.2, Option.map_some, List.flatMap_cons]

end Translation

section Reading

variable {p : Place} {u : Nat} {us vs out : List Nat}

def Place.pending : Place → Nat
  | .octal _ _ => 1
  | _ => 0

theorem length_plainStep {next : Option Place} (h : plainStep u = some (out, next)) :
    (next = none → out = []) ∧ ∀ q, next = some q → out.length + q.pending ≤ 1 := by
  unfold plainStep at h
  split_ifs at h
  all_goals
    obtain ⟨rfl, rfl⟩ := Prod.mk.inj (Option.some.inj h)
    simp [Place.pending]

theorem Place.length_step {next : Option Place} (h : p.step u = some (out, next)) :
    (next = none → out.length ≤ p.pending) ∧
      ∀ q, next = some q → out.length + q.pending ≤ 1 + p.pending := by
  cases p with
  | plain =>
    obtain ⟨hend, hmore⟩ := length_plainStep h
    refine ⟨fun hnext => ?_, fun q hq => ?_⟩
    · rw [hend hnext, List.length_nil]
      exact Nat.zero_le _
    · exact Nat.le_add_right_of_le (hmore q hq)
  | escaped =>
    rw [Place.step] at h
    split at h
    · obtain ⟨rfl, rfl⟩ := Prod.mk.inj (Option.some.inj h)
      simp [Place.pending]
    · obtain ⟨d, -, hd⟩ := Option.map_eq_some_iff.1 h
      obtain ⟨rfl, rfl⟩ := Prod.mk.inj hd
      simp [Place.pending]
  | octal value more =>
    rw [Place.step] at h
    split at h
    · obtain ⟨rfl, rfl⟩ := Prod.mk.inj (Option.some.inj h)
      simp [Place.pending]
    · obtain ⟨⟨out', next'⟩, hplain, hout⟩ := Option.map_eq_some_iff.1 h
      obtain ⟨rfl, rfl⟩ := Prod.mk.inj hout
      obtain ⟨hend, hmore⟩ := length_plainStep hplain
      refine ⟨fun hnext => ?_, fun q hq => ?_⟩
      · rw [hend hnext]
        exact Nat.le_refl 1
      · have hstays := hmore q hq
        change out'.length + 1 + q.pending ≤ 1 + 1
        omega

theorem length_read_le (h : read p us = some vs) : vs.length + 1 ≤ us.length + p.pending := by
  induction us generalizing p vs with
  | nil => simp [read] at h
  | cons u us ih =>
    rw [read] at h
    split at h
    · cases h
    · next out hstep =>
      split_ifs at h with hus
      obtain rfl := Option.some.inj h
      have hwritten := (Place.length_step hstep).1 rfl
      rw [List.length_cons]
      omega
    · next out q hstep =>
      obtain ⟨ws, hws, rfl⟩ := Option.map_eq_some_iff.1 h
      have hwritten := (Place.length_step hstep).2 q rfl
      have hrest := ih hws
      rw [List.length_append, List.length_cons]
      omega

theorem read_plain (h : u ∉ [0x22, 0x0A, 0x0D, 0x5C]) :
    read .plain (u :: us) = (read .plain us).map (u :: ·) := by
  simp only [List.mem_cons, List.not_mem_nil, or_false, not_or] at h
  simp only [read, Place.step, plainStep, h, or_self, if_false, List.singleton_append]

theorem of_read_cons (h : read .plain (u :: us) = some vs) :
    (u = 0x22 ∧ us = [] ∧ vs = []) ∨ (u = 0x5C ∧ read .escaped us = some vs) ∨
      (u ∉ [0x22, 0x0A, 0x0D, 0x5C] ∧ ∃ ws, read .plain us = some ws ∧ u :: ws = vs) := by
  by_cases hu : u ∈ [0x22, 0x0A, 0x0D, 0x5C]
  · simp only [List.mem_cons, List.not_mem_nil, or_false] at hu
    rcases hu with rfl | rfl | rfl | rfl
    · simp only [read, Place.step, plainStep, if_true] at h
      split_ifs at h with hus
      exact .inl ⟨rfl, hus, (Option.some.inj h).symm⟩
    · cases h
    · cases h
    · obtain ⟨ws, hws, rfl⟩ := Option.map_eq_some_iff.1 h
      exact .inr (.inl ⟨rfl, hws⟩)
  · rw [read_plain hu] at h
    exact .inr (.inr ⟨hu, Option.map_eq_some_iff.1 h⟩)

theorem length_read_lt (h : read .plain us = some vs) (hmem : 0x5C ∈ us) :
    vs.length + 1 < us.length := by
  induction us generalizing vs with
  | nil => cases hmem
  | cons u us ih =>
    rcases of_read_cons h with ⟨rfl, rfl, -⟩ | ⟨rfl, hescaped⟩ | ⟨hu, ws, hws, rfl⟩
    · simp at hmem
    · exact Nat.lt_succ_of_le (length_read_le hescaped)
    · have hrest : 0x5C ∈ us := (List.mem_cons.1 hmem).resolve_left fun heq => hu (heq ▸ by simp)
      exact Nat.succ_lt_succ (ih hws hrest)

theorem of_read (h : read .plain us = some vs) (hmem : 0x5C ∉ us) :
    us = vs ++ [0x22] ∧ ∀ u ∈ vs, u ∉ [0x22, 0x0A, 0x0D, 0x5C] := by
  induction us generalizing vs with
  | nil => cases h
  | cons u us ih =>
    rw [List.mem_cons, not_or] at hmem
    rcases of_read_cons h with ⟨rfl, rfl, rfl⟩ | ⟨rfl, -⟩ | ⟨hu, ws, hws, rfl⟩
    · exact ⟨rfl, by simp⟩
    · exact absurd rfl hmem.1
    · obtain ⟨rfl, hrest⟩ := ih hws hmem.2
      exact ⟨rfl, List.forall_mem_cons.2 ⟨hu, hrest⟩⟩

theorem read_of_plain (h : ∀ u ∈ us, u ∉ [0x22, 0x0A, 0x0D, 0x5C]) :
    read .plain (us ++ [0x22]) = some us := by
  induction us with
  | nil => rfl
  | cons u us ih =>
    rw [List.forall_mem_cons] at h
    rw [List.cons_append, read_plain h.1, ih h.2, Option.map_some]

end Reading

def special : List Char := ['"', '\n', '\r', '\\']

def StandsForItself (text : String) : Prop := ∀ c ∈ text.toList, c ∉ special

instance (text : String) : Decidable (StandsForItself text) := List.decidableBAll _ _

theorem forall_mem_units {c : Char} :
    (∀ u ∈ units c, u ∉ [0x22, 0x0A, 0x0D, 0x5C]) ↔ c ∉ special := by
  have heq (d : Char) : c.toNat = d.toNat ↔ c = d := ⟨fun h => Char.toNat_inj.1 h, congrArg _⟩
  by_cases hsmall : c.toNat < 0x10000
  · rw [units, if_pos hsmall, List.forall_mem_singleton]
    simp only [special, List.mem_cons, List.not_mem_nil, or_false]
    rw [← heq '"', ← heq '\n', ← heq '\r', ← heq '\\']
    rfl
  · refine iff_of_true ?_ ?_
    · rw [units, if_neg hsmall, List.forall_mem_cons, List.forall_mem_singleton]
      simp only [List.mem_cons, List.not_mem_nil, or_false]
      omega
    · intro hc
      simp only [special, List.mem_cons, List.not_mem_nil, or_false] at hc
      rcases hc with rfl | rfl | rfl | rfl
      all_goals exact hsmall (by decide)

section Quoted

variable {text : String}

theorem value?_quoted :
    value? ("\"" ++ text ++ "\"") =
      (translate .outside (text.toList ++ ['"'])).bind (read .plain) := by
  have hquoted : ("\"" ++ text ++ "\"").toList = '"' :: (text.toList ++ ['"']) := by
    simp
  have hopen : translate .outside ('"' :: (text.toList ++ ['"'])) =
      (translate .outside (text.toList ++ ['"'])).map (0x22 :: ·) := rfl
  rw [value?, hquoted, hopen]
  cases translate .outside (text.toList ++ ['"']) <;> rfl

theorem flatMap_units_quoted :
    (text.toList ++ ['"']).flatMap units = valueOf text ++ [0x22] := by
  rw [List.flatMap_append]
  rfl

theorem forall_mem_valueOf :
    (∀ u ∈ valueOf text, u ∉ [0x22, 0x0A, 0x0D, 0x5C]) ↔ StandsForItself text := by
  simp only [StandsForItself, valueOf, List.mem_flatMap, ← forall_mem_units]
  exact ⟨fun h c hc u hu => h u ⟨c, hc, hu⟩, fun h u ⟨c, hc, hu⟩ => h c hc u hu⟩

theorem value?_eq_valueOf_iff :
    value? ("\"" ++ text ++ "\"") = some (valueOf text) ↔ StandsForItself text := by
  rw [value?_quoted, ← forall_mem_valueOf]
  constructor
  · intro h
    obtain ⟨us, hus, hread⟩ := Option.bind_eq_some_iff.1 h
    have hlength := length_translate_le hus
    rw [flatMap_units_quoted, List.length_append] at hlength
    have hback : 0x5C ∉ us := fun hmem =>
      Nat.not_lt_of_le hlength (length_read_lt hread hmem)
    exact (of_read hread hback).2
  · intro h
    have hback : '\\' ∉ text.toList ++ ['"'] := by
      intro hmem
      have hin := (List.mem_append.1 hmem).resolve_right (by decide)
      exact forall_mem_valueOf.1 h _ hin (by decide)
    rw [translate_of_not_mem hback, flatMap_units_quoted, Option.bind_some, read_of_plain h]

end Quoted

end StagedBuilder.Java.Literal
