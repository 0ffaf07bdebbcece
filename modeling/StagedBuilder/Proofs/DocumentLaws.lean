import Mathlib.Data.List.Nodup
import StagedBuilder.Toml.Document

namespace StagedBuilder.Toml

/-- No table in the value has a key twice. -/
inductive Value.Distinct : Value → Prop
  | plain {v : Value} (harray : ∀ vs, v ≠ .array vs) (htable : ∀ es, v ≠ .table es) : Distinct v
  | array {vs : List Value} (h : ∀ v ∈ vs, Distinct v) : Distinct (.array vs)
  | table {es : List (String × Value)} (hkeys : (es.map Prod.fst).Nodup)
    (h : ∀ e ∈ es, Distinct e.2) : Distinct (.table es)

/-- The documents that are read have no key twice in a table. -/
def KeepsApart (read : Reading) : Prop :=
  ∀ text es, read text = some es → (Value.table es).Distinct

namespace Value

variable {vs : List Value} {es : List (String × Value)}

theorem distinct_array_iff : (Value.array vs).Distinct ↔ ∀ v ∈ vs, v.Distinct := by
  constructor
  · rintro (⟨harray, -⟩ | h)
    · exact absurd rfl (harray vs)
    · exact h
  · exact .array

theorem distinct_table_iff :
    (Value.table es).Distinct ↔ (es.map Prod.fst).Nodup ∧ ∀ e ∈ es, e.2.Distinct := by
  constructor
  · rintro (⟨-, htable⟩ | - | ⟨hkeys, h⟩)
    · exact absurd rfl (htable es)
    · exact ⟨hkeys, h⟩
  · exact fun h => .table h.1 h.2

theorem Distinct.keys {v : Value} (h : v.Distinct) :
    ∀ es, v = .table es → (es.map Prod.fst).Nodup := by
  rintro es rfl
  exact (distinct_table_iff.1 h).1

mutual

def same : Value → Value → Bool
  | .string s, .string t => s = t
  | .integer m, .integer n => m = n
  | .float x, .float y => x = y
  | .unreadable, .unreadable => true
  | .boolean b, .boolean c => b = c
  | .moment s, .moment t => s = t
  | .array vs, .array ws => allSame vs ws
  | .table es, .table es' => entriesSame es es'
  | _, _ => false

def allSame : List Value → List Value → Bool
  | [], [] => true
  | v :: vs, w :: ws => v.same w && allSame vs ws
  | _, _ => false

def entriesSame : List (String × Value) → List (String × Value) → Bool
  | [], [] => true
  | (key, v) :: es, (key', w) :: es' => key = key' && v.same w && entriesSame es es'
  | _, _ => false

end

mutual

theorem same_iff : ∀ v w : Value, v.same w = true ↔ v = w
  | .string s, w => by cases w <;> simp [same]
  | .integer n, w => by cases w <;> simp [same]
  | .float x, w => by cases w <;> simp [same]
  | .unreadable, w => by cases w <;> simp [same]
  | .boolean b, w => by cases w <;> simp [same]
  | .moment s, w => by cases w <;> simp [same]
  | .array vs, w => by cases w <;> simp [same, allSame_iff vs]
  | .table es, w => by cases w <;> simp [same, entriesSame_iff es]

theorem allSame_iff : ∀ vs ws : List Value, allSame vs ws = true ↔ vs = ws
  | [], ws => by cases ws <;> simp [allSame]
  | v :: vs, ws => by cases ws <;> simp [allSame, same_iff v, allSame_iff vs]

theorem entriesSame_iff : ∀ es es' : List (String × Value), entriesSame es es' = true ↔ es = es'
  | [], es' => by cases es' <;> simp [entriesSame]
  | (key, v) :: es, es' => by
    cases es' <;> simp [entriesSame, same_iff v, entriesSame_iff es, Prod.ext_iff]

end

instance : DecidableEq Value := fun v w => decidable_of_iff _ (same_iff v w)

end Value

section Scalars

variable {s : List Char} {v : Value}

theorem distinct_integer (n : Option Int) : (integer n).Distinct := by
  unfold integer
  split
  · split_ifs <;> exact .plain nofun nofun
  · exact .plain nofun nofun

theorem distinct_based {base : Nat} (h : based? base s = some v) : v.Distinct := by
  unfold based? at h
  split_ifs at h
  obtain ⟨digits, -, rfl⟩ := Option.map_eq_some_iff.1 h
  exact distinct_integer _

theorem distinct_decimal (h : decimal? s = some v) : v.Distinct := by
  unfold decimal? at h
  dsimp only at h
  split_ifs at h
  obtain ⟨digits, -, rfl⟩ := Option.map_eq_some_iff.1 h
  exact distinct_integer _

theorem distinct_finite (h : finite? s = some v) : v.Distinct := by
  unfold finite? at h
  obtain ⟨digits, -, h⟩ := Option.bind_eq_some_iff.1 h
  dsimp only at h
  split_ifs at h
  obtain ⟨⟨n, places⟩, -, h⟩ := Option.bind_eq_some_iff.1 h
  obtain ⟨whole, -, h⟩ := Option.bind_eq_some_iff.1 h
  obtain ⟨exponent, -, h⟩ := Option.bind_eq_some_iff.1 h
  split at h
  all_goals
    obtain rfl := Option.some.inj h
    exact .plain nofun nofun

theorem distinct_scalar (h : scalar? s = some v) : v.Distinct := by
  unfold scalar? number? at h
  split_ifs at h
  · obtain rfl := Option.some.inj h
    exact .plain nofun nofun
  · obtain rfl := Option.some.inj h
    exact .plain nofun nofun
  · split at h
    · exact distinct_based h
    · exact distinct_based h
    · exact distinct_based h
    · split at h
      · obtain rfl := Option.some.inj h
        exact .plain nofun nofun
      · obtain rfl := Option.some.inj h
        exact .plain nofun nofun
      · split_ifs at h
        · exact distinct_finite h
        · exact distinct_decimal h

end Scalars

inductive Node.Distinct : Node → Prop
  | value {v : Value} (h : v.Distinct) : Distinct (.value v)
  | table {origin : Origin} {es : Entries} (hkeys : (es.map Prod.fst).Nodup)
    (h : ∀ e ∈ es, Distinct e.2) : Distinct (.table origin es)
  | tables {latest : Entries} {earlier : List Entries}
    (hkeys : ∀ es ∈ latest :: earlier, (es.map Prod.fst).Nodup)
    (h : ∀ es ∈ latest :: earlier, ∀ e ∈ es, Distinct e.2) : Distinct (.tables latest earlier)

structure Entries.Distinct (es : Entries) : Prop where
  keys : (es.map Prod.fst).Nodup
  nodes : ∀ e ∈ es, e.2.Distinct

namespace Node

theorem entriesValue_eq (es : Entries) :
    entriesValue es = es.map fun e => (e.1, e.2.toValue) := by
  induction es with
  | nil => rfl
  | cons e es ih => rw [entriesValue, ih, List.map_cons]

theorem mem_elements_iff {earlier : List Entries} {vs : List Value} {v : Value} :
    v ∈ elements earlier vs ↔ (∃ es ∈ earlier, .table (entriesValue es) = v) ∨ v ∈ vs := by
  induction earlier generalizing vs with
  | nil => simp [elements]
  | cons es earlier ih =>
    rw [elements, ih, List.mem_cons, List.exists_mem_cons_iff, @eq_comm _ v, or_assoc,
      or_left_comm]

theorem distinct_entriesValue {es : Entries} (hkeys : (es.map Prod.fst).Nodup)
    (h : ∀ e ∈ es, e.2.toValue.Distinct) : (Value.table (entriesValue es)).Distinct := by
  rw [Value.distinct_table_iff, entriesValue_eq, List.map_map, List.forall_mem_map]
  exact ⟨hkeys, h⟩

theorem Distinct.toValue {n : Node} (h : n.Distinct) : n.toValue.Distinct := by
  induction h with
  | value h => exact h
  | table hkeys h ih => exact distinct_entriesValue hkeys ih
  | tables hkeys h ih =>
    rw [Node.toValue, Value.distinct_array_iff]
    intro v hv
    rcases mem_elements_iff.1 hv with ⟨es, hes, rfl⟩ | hv
    · exact distinct_entriesValue (hkeys es (List.mem_cons_of_mem _ hes))
        (ih es (List.mem_cons_of_mem _ hes))
    · obtain rfl := List.mem_singleton.1 hv
      exact distinct_entriesValue (hkeys _ List.mem_cons_self) (ih _ List.mem_cons_self)

end Node

namespace Entries

open Node (Distinct)

variable {es es' inner latest siblings : Entries} {earlier : List Entries} {key k : String}
  {origin : Origin} {f : Option Node → Option Node} {v : Value}

theorem distinct_nil : Entries.Distinct [] := ⟨List.nodup_nil, List.forall_mem_nil _⟩

theorem distinct_table_iff : (Node.table origin es).Distinct ↔ es.Distinct := by
  constructor
  · rintro (- | ⟨hkeys, h⟩)
    exact ⟨hkeys, h⟩
  · exact fun h => .table h.keys h.nodes

theorem distinct_tables_iff :
    (Node.tables latest earlier).Distinct ↔ ∀ es ∈ latest :: earlier, es.Distinct := by
  constructor
  · rintro (- | - | ⟨hkeys, h⟩) es hes
    exact ⟨hkeys es hes, h es hes⟩
  · exact fun h => .tables (fun es hes => (h es hes).keys) fun es hes => (h es hes).nodes

def Keeps (f : Option Node → Option Node) : Prop :=
  ∀ old new, (∀ n ∈ old, n.Distinct) → f old = some new → new.Distinct

theorem keys_update (h : es.update key f = some es') :
    es'.map Prod.fst = es.map Prod.fst ∨
      key ∉ es.map Prod.fst ∧ es'.map Prod.fst = es.map Prod.fst ++ [key] := by
  induction es generalizing es' with
  | nil =>
    obtain ⟨n, -, rfl⟩ := Option.map_eq_some_iff.1 h
    exact .inr ⟨List.not_mem_nil, rfl⟩
  | cons e es ih =>
    rw [update] at h
    split_ifs at h with hkey
    · obtain ⟨n, -, rfl⟩ := Option.map_eq_some_iff.1 h
      exact .inl rfl
    · obtain ⟨rest, hrest, rfl⟩ := Option.map_eq_some_iff.1 h
      rcases ih hrest with heq | ⟨hnew, heq⟩
      · exact .inl (by rw [List.map_cons, List.map_cons, heq])
      · refine .inr ⟨List.not_mem_cons_of_ne_of_not_mem (Ne.symm hkey) hnew, ?_⟩
        rw [List.map_cons, List.map_cons, heq, List.cons_append]

theorem nodes_update (hf : Keeps f) (hes : ∀ e ∈ es, e.2.Distinct)
    (h : es.update key f = some es') : ∀ e ∈ es', e.2.Distinct := by
  induction es generalizing es' with
  | nil =>
    obtain ⟨n, hn, rfl⟩ := Option.map_eq_some_iff.1 h
    rw [List.forall_mem_singleton]
    exact hf none n nofun hn
  | cons e es ih =>
    obtain ⟨he, hes⟩ := List.forall_mem_cons.1 hes
    rw [update] at h
    split_ifs at h
    · obtain ⟨n, hn, rfl⟩ := Option.map_eq_some_iff.1 h
      refine List.forall_mem_cons.2 ⟨hf _ n ?_ hn, hes⟩
      rintro _ ⟨⟩
      exact he
    · obtain ⟨rest, hrest, rfl⟩ := Option.map_eq_some_iff.1 h
      exact List.forall_mem_cons.2 ⟨he, ih hes hrest⟩

theorem Distinct.update (hes : es.Distinct) (hf : Keeps f) (h : es.update key f = some es') :
    es'.Distinct := by
  refine ⟨?_, nodes_update hf hes.nodes h⟩
  rcases keys_update h with heq | ⟨hnew, heq⟩
  · exact heq ▸ hes.keys
  · rw [heq, ← List.concat_eq_append]
    exact hes.keys.concat hnew

theorem Distinct.tables (h : (Node.tables latest earlier).Distinct) (hes : es.Distinct) :
    (Node.tables es earlier).Distinct :=
  distinct_tables_iff.2 (List.forall_mem_cons.2
    ⟨hes, (List.forall_mem_cons.1 (distinct_tables_iff.1 h)).2⟩)

theorem Distinct.within {f : Entries → Option Entries}
    (hf : ∀ es es', es.Distinct → f es = some es' → es'.Distinct) (path : List String)
    (hes : es.Distinct) (h : es.within f path = some es') : es'.Distinct := by
  induction path generalizing es es' with
  | nil => exact hf es es' hes h
  | cons key path ih =>
    refine hes.update ?_ h
    rintro (_ | ⟨v | ⟨origin, inner⟩ | ⟨latest, earlier⟩⟩) new hold hnew
    · obtain ⟨made, hmade, rfl⟩ := Option.map_eq_some_iff.1 hnew
      exact distinct_table_iff.2 (ih distinct_nil hmade)
    · cases hnew
    · obtain ⟨made, hmade, rfl⟩ := Option.map_eq_some_iff.1 hnew
      exact distinct_table_iff.2 (ih (distinct_table_iff.1 (hold _ rfl)) hmade)
    · obtain ⟨made, hmade, rfl⟩ := Option.map_eq_some_iff.1 hnew
      have hlatest := distinct_tables_iff.1 (hold _ rfl) latest List.mem_cons_self
      exact Distinct.tables (hold _ rfl) (ih hlatest hmade)

theorem Distinct.add (hv : v.Distinct) (path : List String) (hes : es.Distinct)
    (h : es.add key v path = some es') : es'.Distinct := by
  induction path generalizing es es' with
  | nil =>
    refine hes.update ?_ h
    rintro (_ | n) new - hnew
    · obtain rfl := Option.some.inj hnew
      exact .value hv
    · cases hnew
  | cons k path ih =>
    refine hes.update ?_ h
    rintro (_ | ⟨v | ⟨_ | _ | _, inner⟩ | ⟨latest, earlier⟩⟩) new hold hnew
    · obtain ⟨made, hmade, rfl⟩ := Option.map_eq_some_iff.1 hnew
      exact distinct_table_iff.2 (ih distinct_nil hmade)
    · cases hnew
    · dsimp only at hnew
      split_ifs at hnew
      obtain ⟨made, hmade, rfl⟩ := Option.map_eq_some_iff.1 hnew
      exact distinct_table_iff.2 (ih (distinct_table_iff.1 (hold _ rfl)) hmade)
    · obtain ⟨made, hmade, rfl⟩ := Option.map_eq_some_iff.1 hnew
      exact distinct_table_iff.2 (ih (distinct_table_iff.1 (hold _ rfl)) hmade)
    · cases hnew
    · dsimp only at hnew
      split_ifs at hnew
      obtain ⟨made, hmade, rfl⟩ := Option.map_eq_some_iff.1 hnew
      have hlatest := distinct_tables_iff.1 (hold _ rfl) latest List.mem_cons_self
      exact Distinct.tables (hold _ rfl) (ih hlatest hmade)

theorem Distinct.putLast {n : Node} (hes : es.Distinct) (hn : n.Distinct) (key : String) :
    (es.putLast key n).Distinct := by
  constructor
  · rw [Entries.putLast, List.map_append, List.map_singleton, ← List.concat_eq_append]
    refine (hes.keys.sublist (List.filter_sublist.map _)).concat ?_
    intro hmem
    obtain ⟨e, he, rfl⟩ := List.mem_map.1 hmem
    exact of_decide_eq_true (List.mem_filter.1 he).2 rfl
  · refine List.forall_mem_append.2 ⟨fun e he => hes.nodes e (List.mem_of_mem_filter he), ?_⟩
    exact List.forall_mem_singleton.2 hn

theorem Distinct.openTable (hes : es.Distinct) (path : List String)
    (h : es.openTable key path = some es') : es'.Distinct := by
  refine hes.within ?_ path h
  intro siblings new hsiblings hnew
  cases hkey : siblings.lookup key with
  | none =>
    rw [hkey] at hnew
    obtain rfl := Option.some.inj hnew
    exact hsiblings.putLast (distinct_table_iff.2 distinct_nil) key
  | some n =>
    obtain ⟨before, after, heq, -⟩ := List.lookup_eq_some_iff.1 hkey
    have hn : n.Distinct := hsiblings.nodes (key, n) (by simp [heq])
    rw [hkey] at hnew
    rcases n with v | ⟨_ | _ | _, inner⟩ | ⟨latest, earlier⟩
    · cases hnew
    · obtain rfl := Option.some.inj hnew
      exact hsiblings.putLast (distinct_table_iff.2 (distinct_table_iff.1 hn)) key
    all_goals cases hnew

theorem Distinct.openElement (hes : es.Distinct) (path : List String)
    (h : es.openElement key path = some es') : es'.Distinct := by
  refine hes.within (fun siblings new hsiblings hnew => hsiblings.update ?_ hnew) path h
  rintro (_ | ⟨v | ⟨origin, inner⟩ | ⟨latest, earlier⟩⟩) new hold hnew
  · obtain rfl := Option.some.inj hnew
    exact distinct_tables_iff.2 (List.forall_mem_singleton.2 distinct_nil)
  · cases hnew
  · cases hnew
  · obtain rfl := Option.some.inj hnew
    exact distinct_tables_iff.2
      (List.forall_mem_cons.2 ⟨distinct_nil, distinct_tables_iff.1 (hold _ rfl)⟩)

end Entries

def Statement.Distinct : Statement → Prop
  | .pair _ v => v.Distinct
  | _ => True

section Assembly

variable {statements : List Statement} {entries entries' : Entries} {es : List (String × Value)}

theorem distinct_assembleFrom (h : ∀ s ∈ statements, s.Distinct) {current : List String}
    (hes : entries.Distinct) (hassemble : assembleFrom current entries statements = some entries') :
    entries'.Distinct := by
  induction statements generalizing current entries with
  | nil =>
    obtain rfl := Option.some.inj hassemble
    exact hes
  | cons s statements ih =>
    obtain ⟨hs, hstatements⟩ := List.forall_mem_cons.1 h
    cases s with
    | header key =>
      obtain ⟨made, hmade, hrest⟩ := Option.bind_eq_some_iff.1 hassemble
      exact ih hstatements (hes.openTable key.path hmade) hrest
    | elementHeader key =>
      obtain ⟨made, hmade, hrest⟩ := Option.bind_eq_some_iff.1 hassemble
      exact ih hstatements (hes.openElement key.path hmade) hrest
    | pair key v =>
      obtain ⟨made, hmade, hrest⟩ := Option.bind_eq_some_iff.1 hassemble
      have hadd (es es' : Entries) (hes : es.Distinct)
          (hadded : es.add key.last v key.path = some es') : es'.Distinct :=
        hes.add hs key.path hadded
      exact ih hstatements (hes.within hadd current hmade) hrest

theorem distinct_assemble (h : ∀ s ∈ statements, s.Distinct) (hes : assemble statements = some es) :
    (Value.table es).Distinct := by
  obtain ⟨entries, hentries, rfl⟩ := Option.map_eq_some_iff.1 hes
  have hdistinct := distinct_assembleFrom h Entries.distinct_nil hentries
  exact Node.distinct_entriesValue hdistinct.keys fun e he => (hdistinct.nodes e he).toValue

end Assembly

namespace Reader

variable {α β : Type} {P : α → Prop} {Q : β → Prop} {r : Reader α} {k : α → Reader β}

def Yields (P : α → Prop) (r : Reader α) : Prop :=
  ∀ cs a rest, r cs = some (a, rest) → P a

theorem yields_true (r : Reader α) : Yields (fun _ => True) r := fun _ _ _ _ => trivial

theorem yields_failure : Yields P (failure : Reader α) := nofun

theorem yields_pure {a : α} (h : P a) : Yields P (pure a) := by
  rintro cs a' rest heq
  obtain ⟨rfl, -⟩ := Prod.mk.inj (Option.some.inj heq)
  exact h

theorem Yields.bind (hr : Yields P r) (hk : ∀ a, P a → Yields Q (k a)) : Yields Q (r >>= k) := by
  intro cs b rest h
  obtain ⟨⟨a, cs'⟩, ha, hb⟩ := Option.bind_eq_some_iff.1 h
  exact hk a (hr cs a cs' ha) cs' b rest hb

theorem yields_bind (r : Reader α) (hk : ∀ a, Yields Q (k a)) : Yields Q (r >>= k) :=
  (yields_true r).bind fun a _ => hk a

theorem yields_ite {c : Bool} {r r' : Reader α} (h : Yields P r) (h' : Yields P r') :
    Yields P (if c then r else r') := by
  cases c with
  | true => exact h
  | false => exact h'

section Levels

variable {n : Nat}

theorem yields_value (helements : ∀ levels, Yields (∀ v ∈ ·, v.Distinct) (elements levels n))
    (hpairs : ∀ levels, Yields (∀ s ∈ ·, s.Distinct) (inlinePairs levels n)) (levels : Nat) :
    Yields Value.Distinct (value levels (n + 1)) := by
  intro cs v rest h
  rw [value] at h
  dsimp only at h
  split at h
  · obtain ⟨⟨s, rest'⟩, -, heq⟩ := Option.map_eq_some_iff.1 h
    obtain ⟨rfl, -⟩ := Prod.mk.inj heq
    exact .plain nofun nofun
  · obtain ⟨⟨s, rest'⟩, -, heq⟩ := Option.map_eq_some_iff.1 h
    obtain ⟨rfl, -⟩ := Prod.mk.inj heq
    exact .plain nofun nofun
  · obtain ⟨⟨vs, rest'⟩, hvs, heq⟩ := Option.map_eq_some_iff.1 h
    obtain ⟨rfl, -⟩ := Prod.mk.inj heq
    exact .array (helements levels _ vs rest' hvs)
  · obtain ⟨⟨statements, rest'⟩, hstatements, h⟩ := Option.bind_eq_some_iff.1 h
    obtain ⟨es, hes, heq⟩ := Option.bind_eq_some_iff.1 h
    obtain ⟨rfl, -⟩ := Prod.mk.inj (Option.some.inj heq)
    exact distinct_assemble (hpairs levels _ statements rest' hstatements) hes
  · obtain ⟨scalar, hscalar, heq⟩ := Option.map_eq_some_iff.1 h
    obtain ⟨rfl, -⟩ := Prod.mk.inj heq
    exact distinct_scalar hscalar

theorem yields_elements (hvalue : ∀ levels, Yields Value.Distinct (value levels n))
    (helements : ∀ levels, Yields (∀ v ∈ ·, v.Distinct) (elements levels n)) (levels : Nat) :
    Yields (∀ v ∈ ·, v.Distinct) (elements levels (n + 1)) := by
  cases levels with
  | zero => exact yields_failure
  | succ levels =>
    rw [elements]
    refine yields_bind _ fun _ => yields_bind _ fun _ => yields_ite
      (yields_pure (List.forall_mem_nil _)) ((hvalue levels).bind fun v hv => ?_)
    refine yields_bind _ fun _ => yields_bind _ fun _ => yields_ite
      ((helements _).bind fun vs hvs => yields_pure (List.forall_mem_cons.2 ⟨hv, hvs⟩))
      (yields_bind _ fun _ => yields_pure (List.forall_mem_singleton.2 hv))

theorem yields_inlinePairs (hpairs : ∀ levels, Yields (∀ s ∈ ·, s.Distinct) (pairs levels n))
    (levels : Nat) : Yields (∀ s ∈ ·, s.Distinct) (inlinePairs levels (n + 1)) := by
  cases levels with
  | zero => exact yields_failure
  | succ levels =>
    rw [inlinePairs]
    exact yields_bind _ fun _ => yields_bind _ fun _ => yields_ite
      (yields_pure (List.forall_mem_nil _)) (hpairs levels)

theorem yields_pairs (hpair : ∀ levels, Yields Statement.Distinct (pair levels n))
    (hpairs : ∀ levels, Yields (∀ s ∈ ·, s.Distinct) (pairs levels n)) (levels : Nat) :
    Yields (∀ s ∈ ·, s.Distinct) (pairs levels (n + 1)) := by
  rw [pairs]
  refine yields_bind _ fun _ => (hpair levels).bind fun s hs => ?_
  refine yields_bind _ fun _ => yields_bind _ fun _ => yields_ite
    ((hpairs levels).bind fun rest hrest => yields_pure (List.forall_mem_cons.2 ⟨hs, hrest⟩))
    (yields_bind _ fun _ => yields_pure (List.forall_mem_singleton.2 hs))

theorem yields_pair (hvalue : ∀ levels, Yields Value.Distinct (value levels n)) (levels : Nat) :
    Yields Statement.Distinct (pair levels (n + 1)) := by
  rw [pair]
  exact yields_bind _ fun k => yields_bind _ fun _ => yields_bind _ fun _ =>
    (hvalue levels).bind fun v hv => yields_pure hv

structure YieldsDistinct (n : Nat) : Prop where
  value (levels : Nat) : Yields Value.Distinct (value levels n)
  elements (levels : Nat) : Yields (∀ v ∈ ·, v.Distinct) (elements levels n)
  inlinePairs (levels : Nat) : Yields (∀ s ∈ ·, s.Distinct) (inlinePairs levels n)
  pairs (levels : Nat) : Yields (∀ s ∈ ·, s.Distinct) (pairs levels n)
  pair (levels : Nat) : Yields Statement.Distinct (pair levels n)

theorem yieldsDistinct (n : Nat) : YieldsDistinct n := by
  induction n with
  | zero =>
    have hlevels (levels : Nat) : elements levels 0 = failure ∧ inlinePairs levels 0 = failure := by
      cases levels <;> exact ⟨rfl, rfl⟩
    exact {
      value := fun _ => yields_failure
      elements := fun levels => (hlevels levels).1 ▸ yields_failure
      inlinePairs := fun levels => (hlevels levels).2 ▸ yields_failure
      pairs := fun _ => yields_failure
      pair := fun _ => yields_failure }
  | succ n ih =>
    exact {
      value := yields_value ih.elements ih.inlinePairs
      elements := yields_elements ih.value ih.elements
      inlinePairs := yields_inlinePairs ih.pairs
      pairs := yields_pairs ih.pair ih.pairs
      pair := yields_pair ih.value }

end Levels

theorem yields_statement (n : Nat) : Yields Statement.Distinct (statement n) := by
  intro cs s rest h
  unfold statement at h
  split at h
  · obtain ⟨⟨key, cs'⟩, -, h⟩ := Option.bind_eq_some_iff.1 h
    dsimp only at h
    obtain ⟨⟨_, cs''⟩, _, h⟩ := Option.bind_eq_some_iff.1 h
    obtain ⟨rfl, -⟩ := Prod.mk.inj (Option.some.inj h)
    trivial
  · obtain ⟨⟨key, cs'⟩, -, h⟩ := Option.map_eq_some_iff.1 h
    obtain ⟨rfl, -⟩ := Prod.mk.inj h
    trivial
  · exact (yieldsDistinct n).pair maxDepth _ s rest h

theorem yields_statements (n : Nat) : Yields (∀ s ∈ ·, s.Distinct) (statements n) := by
  induction n with
  | zero => exact yields_failure
  | succ n ih =>
    rw [statements]
    refine yields_bind _ fun _ => yields_bind _ fun _ => yields_ite
      (yields_pure (List.forall_mem_nil _)) ((yields_statement n).bind fun s hs => ?_)
    exact yields_bind _ fun _ => ih.bind fun rest hrest =>
      yields_pure (List.forall_mem_cons.2 ⟨hs, hrest⟩)

end Reader

example : read "[a]\nb.c = 1\n" = some [("a", .table [("b", .table [("c", .integer 1)])])] := by
  decide +kernel

theorem keepsApart_read : KeepsApart read := by
  intro text es h
  obtain ⟨⟨statements, rest⟩, hstatements, hes⟩ := Option.bind_eq_some_iff.1 h
  exact distinct_assemble (Reader.yields_statements _ _ statements rest hstatements) hes

end StagedBuilder.Toml
