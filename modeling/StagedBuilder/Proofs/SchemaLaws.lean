import StagedBuilder.Manifest.Schema
import StagedBuilder.Proofs.KeyLaws
import StagedBuilder.Proofs.TraversalLaws

namespace StagedBuilder

open Toml (Value)

variable {α β γ : Type}

theorem bind_eq_ok_iff {ε : Type} {x : Except ε α} {f : α → Except ε β} {b : β} :
    x.bind f = .ok b ↔ ∃ a, x = .ok a ∧ f a = .ok b := by
  cases x <;> simp [Except.bind]

namespace RecordField

variable {f g : RecordField α} {given rest : List (String × Value)} {a b c : α} {v : Value}

def Commutes (f g : RecordField α) : Prop :=
  ∀ v w a c, (∃ b, f.set v a = .ok b ∧ g.set w b = .ok c) ↔
    ∃ b, g.set w a = .ok b ∧ f.set v b = .ok c

def gather (given : List (String × Value)) (f : RecordField α) (a : α) : Except SchemaError α :=
  match given.lookup f.key with
  | none => .ok a
  | some v => f.set v a

theorem of_set_eq_ok_iff {p : Presence} {key : String} {d : Decoder β} {put : α → β → α} :
    (RecordField.of p key d put).set v a = .ok b ↔ ∃ x, d v = .ok x ∧ put a x = b :=
  map_eq_ok_iff

theorem commutes_of {p q : Presence} {key key' : String} {d : Decoder β} {e : Decoder γ}
    {put : α → β → α} {put' : α → γ → α} (h : ∀ a x y, put' (put a x) y = put (put' a y) x) :
    (RecordField.of p key d put).Commutes (RecordField.of q key' e put') := by
  intro v w a c
  simp only [of_set_eq_ok_iff]
  constructor
  · rintro ⟨_, ⟨x, hx, rfl⟩, y, hy, rfl⟩
    exact ⟨_, ⟨y, hy, rfl⟩, x, hx, (h a x y).symm⟩
  · rintro ⟨_, ⟨y, hy, rfl⟩, x, hx, rfl⟩
    exact ⟨_, ⟨x, hx, rfl⟩, y, hy, h a x y⟩

theorem Commutes.gather (h : g.Commutes f) (given : List (String × Value)) (v : Value) (a c : α) :
    (∃ b, g.gather given a = .ok b ∧ f.set v b = .ok c) ↔
      ∃ b, f.set v a = .ok b ∧ g.gather given b = .ok c := by
  unfold RecordField.gather
  cases given.lookup g.key with
  | none => simp
  | some w => exact h w v a c

def gatherAll (given : List (String × Value)) : List (RecordField α) → α → Except SchemaError α
  | [], a => .ok a
  | f :: fields, a => do gatherAll given fields (← f.gather given a)

section Gathering

variable {fields : List (RecordField α)}

theorem gatherAll_cons_eq_ok_iff :
    gatherAll given (f :: fields) a = .ok c ↔
      ∃ b, f.gather given a = .ok b ∧ gatherAll given fields b = .ok c :=
  bind_eq_ok_iff

theorem gather_congr (h : given.lookup f.key = rest.lookup f.key) :
    f.gather given a = f.gather rest a := by
  rw [gather, gather, h]

theorem gatherAll_congr (h : ∀ f ∈ fields, given.lookup f.key = rest.lookup f.key) (a : α) :
    gatherAll given fields a = gatherAll rest fields a := by
  induction fields generalizing a with
  | nil => rfl
  | cons f fields ih =>
    obtain ⟨hf, hfields⟩ := List.forall_mem_cons.1 h
    rw [gatherAll, gatherAll, gather_congr hf]
    exact congrArg _ (funext (ih hfields))

theorem gatherAll_nil (fields : List (RecordField α)) (a : α) : gatherAll [] fields a = .ok a := by
  induction fields with
  | nil => rfl
  | cons f fields ih => exact ih

theorem lookup_cons_of_ne {key : String} (h : key ≠ f.key) :
    List.lookup key ((f.key, v) :: rest) = rest.lookup key := by
  rw [List.lookup_cons, beq_eq_false_iff_ne.2 h]

theorem gatherAll_given_cons (hf : f ∈ fields) (hkeys : (fields.map (·.key)).Nodup)
    (hcommutes : fields.Pairwise Commutes) (hrest : rest.lookup f.key = none) :
    gatherAll ((f.key, v) :: rest) fields a = .ok c ↔
      ∃ b, f.set v a = .ok b ∧ gatherAll rest fields b = .ok c := by
  induction fields generalizing a with
  | nil => cases hf
  | cons g fields ih =>
    obtain ⟨hg, hkeys⟩ := List.nodup_cons.1 hkeys
    obtain ⟨hcommutes₁, hcommutes⟩ := List.pairwise_cons.1 hcommutes
    rw [gatherAll_cons_eq_ok_iff]
    rcases List.mem_cons.1 hf with rfl | hf
    · have hothers (b : α) :
          gatherAll ((f.key, v) :: rest) fields b = gatherAll rest fields b := by
        refine gatherAll_congr (fun g hmem => lookup_cons_of_ne fun heq => ?_) b
        exact hg (List.mem_map.2 ⟨g, hmem, heq⟩)
      have hset : f.gather ((f.key, v) :: rest) a = f.set v a := by
        rw [gather, List.lookup_cons, beq_self_eq_true]
      have hskip (b : α) : gatherAll rest (f :: fields) b = gatherAll rest fields b := by
        rw [gatherAll, gather, hrest]
        rfl
      simp only [hothers, hset, hskip]
    · have hne : g.key ≠ f.key := fun heq => hg (List.mem_map.2 ⟨f, hf, heq.symm⟩)
      have hlater := fun b => ih (a := b) hf hkeys hcommutes
      simp only [gather_congr (lookup_cons_of_ne hne), hlater, gatherAll_cons_eq_ok_iff]
      have hswap := fun b => (hcommutes₁ f hf).gather rest v a b
      constructor
      · rintro ⟨b, hb, b', hb', hc⟩
        obtain ⟨b₁, hb₁, hb₂⟩ := (hswap b').1 ⟨b, hb, hb'⟩
        exact ⟨b₁, hb₁, b', hb₂, hc⟩
      · rintro ⟨b, hb, b', hb', hc⟩
        obtain ⟨b₁, hb₁, hb₂⟩ := (hswap b').2 ⟨b, hb, hb'⟩
        exact ⟨b₁, hb₁, b', hb₂, hc⟩

theorem exists_set_of_gatherAll (h : gatherAll given fields a = .ok c) (hf : f ∈ fields)
    (hv : given.lookup f.key = some v) : ∃ b b', f.set v b = .ok b' := by
  induction fields generalizing a with
  | nil => cases hf
  | cons g fields ih =>
    obtain ⟨b, hb, h⟩ := gatherAll_cons_eq_ok_iff.1 h
    rcases List.mem_cons.1 hf with rfl | hf
    · rw [gather, hv] at hb
      exact ⟨a, b, hb⟩
    · exact ih h hf

end Gathering

end RecordField

/-- What is read for a key, or the default where the key is not given. -/
def Reads (given : List (String × Value)) (key : String) (d : Decoder β) (default b : β) : Prop :=
  match given.lookup key with
  | none => b = default
  | some v => d v = .ok b

def Decoder.optional (d : Decoder β) : Decoder (Option β) := fun v => (d v).map some

namespace RecordField

variable {given : List (String × Value)} {fields : List (RecordField α)} {a c : α}
  {p : Presence} {key : String} {d : Decoder β}

theorem gatherAll_nil_eq_ok_iff : gatherAll given [] a = .ok c ↔ a = c := by
  rw [gatherAll, Except.ok.injEq]

theorem gatherAll_cons_iff (get : α → β) (put : α → β → α) (hput : ∀ a, put a (get a) = a) :
    gatherAll given (.of p key d put :: fields) a = .ok c ↔
      ∃ b, Reads given key d (get a) b ∧ gatherAll given fields (put a b) = .ok c := by
  rw [gatherAll_cons_eq_ok_iff]
  unfold gather Reads
  dsimp only [RecordField.of]
  cases given.lookup key with
  | none => simp [hput]
  | some v =>
    simp only [map_eq_ok_iff]
    constructor
    · rintro ⟨_, ⟨b, hb, rfl⟩, hc⟩
      exact ⟨b, hb, hc⟩
    · rintro ⟨b, hb, hc⟩
      exact ⟨_, ⟨b, hb, rfl⟩, hc⟩

theorem gatherAll_optional_cons_iff (get : α → Option β) (put : α → Option β → α)
    (hput : ∀ a, put a (get a) = a) :
    gatherAll given (.of p key d (fun a b => put a (some b)) :: fields) a = .ok c ↔
      ∃ b, Reads given key d.optional (get a) b ∧ gatherAll given fields (put a b) = .ok c := by
  rw [← gatherAll_cons_iff (p := p) get put hput, gatherAll_cons_eq_ok_iff,
    gatherAll_cons_eq_ok_iff]
  have hset (b : α) : (RecordField.of p key d fun a b => put a (some b)).gather given a = .ok b ↔
      (RecordField.of p key d.optional put).gather given a = .ok b := by
    rw [gather, gather]
    dsimp only [RecordField.of]
    cases given.lookup key with
    | none => exact Iff.rfl
    | some v => simp [Decoder.optional, map_eq_ok_iff]
  simp only [hset]

end RecordField

namespace Schema

open RecordField (Commutes gatherAll gatherAll_nil gatherAll_given_cons gatherAll_congr
  gatherAll_cons_eq_ok_iff lookup_cons_of_ne)

variable {s : Schema α} {given : List (String × Value)} {a b : α}

def keys (s : Schema α) : List String := s.fields.map (·.key)

/-- Each field has a key of its own and can be set whether or not another one is. -/
structure Lawful (s : Schema α) : Prop where
  keys : s.keys.Nodup
  commutes : s.fields.Pairwise Commutes

theorem setEntries_eq_ok_iff (h : s.Lawful) (hkeys : (given.map Prod.fst).Nodup) :
    s.setEntries given a = .ok b ↔
      (∀ key ∈ given.map Prod.fst, key ∈ s.keys) ∧ gatherAll given s.fields a = .ok b := by
  induction given generalizing a with
  | nil => simp [setEntries, gatherAll_nil]
  | cons e given ih =>
    obtain ⟨key, v⟩ := e
    obtain ⟨hnew, hothers⟩ := List.nodup_cons.1 hkeys
    rw [setEntries]
    cases hfind : s.fields.find? (·.key = key) with
    | none =>
      refine iff_of_false nofun ?_
      rintro ⟨hknown, -⟩
      obtain ⟨f, hf, rfl⟩ := List.mem_map.1 (hknown key List.mem_cons_self)
      exact List.find?_eq_none.1 hfind f hf (decide_eq_true rfl)
    | some f =>
      obtain rfl : f.key = key := by simpa using List.find?_some hfind
      have hf := List.mem_of_find?_eq_some hfind
      have hkey : f.key ∈ s.keys := List.mem_map_of_mem hf
      have hset : (do s.setEntries given (← f.set v a)) = .ok b ↔
          ∃ a', f.set v a = .ok a' ∧ s.setEntries given a' = .ok b := bind_eq_ok_iff
      dsimp only
      rw [hset, List.map_cons, List.forall_mem_cons, and_iff_right hkey,
        gatherAll_given_cons hf h.keys h.commutes (lookup_eq_none_iff.2 hnew)]
      simp only [ih hothers]
      constructor
      · rintro ⟨a', ha', hknown, hrest⟩
        exact ⟨hknown, a', ha', hrest⟩
      · rintro ⟨hknown, a', ha', hrest⟩
        exact ⟨a', ha', hknown, hrest⟩

theorem setElements_eq_ok_iff {fields : List (RecordField α)}
    (hkeys : (fields.map (·.key)).Nodup) {i : Nat} {vs : List Value} :
    s.setElements i fields vs a = .ok b ↔
      (∀ f ∈ fields.drop vs.length, f.presence = .optional) ∧
        gatherAll ((fields.map (·.key)).zip vs) fields a = .ok b := by
  induction fields generalizing i vs a with
  | nil => simp [setElements, gatherAll]
  | cons f fields ih =>
    obtain ⟨hf, hkeys⟩ := List.nodup_cons.1 hkeys
    cases vs with
    | nil =>
      rw [setElements, List.length_nil, List.drop_zero, List.forall_mem_cons, List.zip_nil_right,
        gatherAll_nil]
      split_ifs with hpresence
      · rw [ih hkeys, List.length_nil, List.drop_zero, List.zip_nil_right, gatherAll_nil,
          and_iff_right hpresence]
      · simp [hpresence]
    | cons v vs =>
      have hset : f.gather ((f.key, v) :: (fields.map (·.key)).zip vs) a = f.set v a := by
        rw [RecordField.gather, List.lookup_cons, beq_self_eq_true]
      have hothers (a' : α) : gatherAll ((f.key, v) :: (fields.map (·.key)).zip vs) fields a' =
          gatherAll ((fields.map (·.key)).zip vs) fields a' := by
        refine gatherAll_congr (fun g hg => lookup_cons_of_ne fun heq => ?_) a'
        exact hf (List.mem_map.2 ⟨g, hg, heq⟩)
      have hbind : s.setElements i (f :: fields) (v :: vs) a = .ok b ↔
          ∃ a', f.set v a = .ok a' ∧ s.setElements (i + 1) fields vs a' = .ok b := bind_eq_ok_iff
      rw [hbind, List.length_cons, List.drop_succ_cons, List.map_cons, List.zip_cons_cons,
        gatherAll_cons_eq_ok_iff, hset]
      simp only [ih hkeys, hothers]
      constructor
      · rintro ⟨a', ha', hoptional, hrest⟩
        exact ⟨hoptional, a', ha', hrest⟩
      · rintro ⟨hoptional, a', ha', hrest⟩
        exact ⟨a', ha', hoptional, hrest⟩

/-- The value gives these values to fields of the record, and to all that it has to. -/
inductive Gives (s : Schema α) : Value → List (String × Value) → Prop
  | table {given : List (String × Value)} (known : ∀ key ∈ given.map Prod.fst, key ∈ s.keys)
    (required : ∀ f ∈ s.fields, f.presence = .required → f.key ∈ given.map Prod.fst) :
    s.Gives (.table given) given
  | array {vs : List Value}
    (optional : ∀ f ∈ s.fields.drop vs.length, f.presence = .optional) :
    s.Gives (.array vs) (s.keys.zip vs)

theorem missing?_eq_none_iff :
    s.missing? given = none ↔
      ∀ f ∈ s.fields, f.presence = .required → f.key ∈ given.map Prod.fst := by
  rw [missing?, List.find?_eq_none]
  refine forall₂_congr fun f _ => ?_
  rw [Bool.and_eq_true, not_and, decide_eq_true_eq, Bool.not_eq_true', Bool.not_eq_false,
    List.any_eq_true, List.mem_map]
  simp

/-- A record is what its fields look up. -/
theorem decode_eq_ok_iff (h : s.Lawful) {v : Value}
    (hkeys : ∀ given, v = .table given → (given.map Prod.fst).Nodup) :
    s.decode v = .ok a ↔ ∃ given, s.Gives v given ∧ gatherAll given s.fields s.initial = .ok a := by
  cases v with
  | table given =>
    have hdecode : s.decode (.table given) = .ok a ↔
        s.setEntries given s.initial = .ok a ∧ s.missing? given = none := by
      refine bind_eq_ok_iff.trans ⟨?_, ?_⟩
      · rintro ⟨a', ha', hmissing⟩
        cases hm : s.missing? given with
        | some f =>
          rw [hm] at hmissing
          cases hmissing
        | none =>
          rw [hm] at hmissing
          obtain rfl := Except.ok.inj hmissing
          exact ⟨ha', rfl⟩
      · rintro ⟨ha, hm⟩
        exact ⟨a, ha, by rw [hm]⟩
    rw [hdecode, setEntries_eq_ok_iff h (hkeys given rfl), missing?_eq_none_iff]
    constructor
    · rintro ⟨⟨hknown, ha⟩, hrequired⟩
      exact ⟨given, .table hknown hrequired, ha⟩
    · rintro ⟨_, ⟨hknown, hrequired⟩, ha⟩
      exact ⟨⟨hknown, ha⟩, hrequired⟩
  | array vs =>
    rw [decode, setElements_eq_ok_iff h.keys]
    constructor
    · rintro ⟨hoptional, ha⟩
      exact ⟨_, .array hoptional, ha⟩
    · rintro ⟨_, ⟨⟩, ha⟩
      exact ⟨‹_›, ha⟩
  | _ =>
    refine iff_of_false nofun ?_
    rintro ⟨_, ⟨⟩, -⟩

end Schema

end StagedBuilder
