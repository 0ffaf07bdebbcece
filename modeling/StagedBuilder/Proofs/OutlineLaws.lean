import StagedBuilder.Proofs.DocumentLaws
import StagedBuilder.Proofs.SchemaLaws

namespace StagedBuilder

open Toml (Value)

variable {α β : Type}

inductive Outline
  | plain
  | record (keys : List String) (child : String → Outline)
  | list (item : Outline)
  | entries (item : Outline)

namespace Outline

def Alike (r : String → Value → Value → Prop) :
    List (String × Value) → List (String × Value) → Prop :=
  List.Forall₂ fun e e' => e.1 = e'.1 ∧ r e.1 e.2 e'.2

inductive ReorderedRecord (keys : List String) (r : String → Value → Value → Prop) :
    Value → Value → Prop
  | same (v : Value) : ReorderedRecord keys r v v
  | table {given between given' : List (String × Value)} (hperm : given.Perm between)
    (h : Alike r between given') : ReorderedRecord keys r (.table given) (.table given')
  | array {vs ws : List Value} (h : Alike r (keys.zip vs) (keys.zip ws))
    (hrest : vs.drop keys.length = ws.drop keys.length) :
    ReorderedRecord keys r (.array vs) (.array ws)

inductive ReorderedList (r : Value → Value → Prop) : Value → Value → Prop
  | same (v : Value) : ReorderedList r v v
  | array {vs ws : List Value} (h : List.Forall₂ r vs ws) : ReorderedList r (.array vs) (.array ws)

inductive ReorderedEntries (r : Value → Value → Prop) : Value → Value → Prop
  | same (v : Value) : ReorderedEntries r v v
  | table {es es' : List (String × Value)} (h : Alike (fun _ => r) es es') :
    ReorderedEntries r (.table es) (.table es')

/-- The values differ at most in the order of the entries of records. -/
def Reordered : Outline → Value → Value → Prop
  | .plain => Eq
  | .record keys child => ReorderedRecord keys fun key => (child key).Reordered
  | .list item => ReorderedList item.Reordered
  | .entries item => ReorderedEntries item.Reordered

/-- The table `given` stands somewhere in the value for a record with these keys. -/
inductive Contains (names : List String) (given : List (String × Value)) : Outline → Value → Prop
  | here {child : String → Outline} : Contains names given (.record names child) (.table given)
  | field {keys : List String} {child : String → Outline} {es : List (String × Value)}
    {e : String × Value} (he : e ∈ es) (h : Contains names given (child e.1) e.2) :
    Contains names given (.record keys child) (.table es)
  | position {keys : List String} {child : String → Outline} {vs : List Value}
    {e : String × Value} (he : e ∈ keys.zip vs) (h : Contains names given (child e.1) e.2) :
    Contains names given (.record keys child) (.array vs)
  | item {item : Outline} {vs : List Value} {v : Value} (hv : v ∈ vs)
    (h : Contains names given item v) : Contains names given (.list item) (.array vs)
  | entry {item : Outline} {es : List (String × Value)} {e : String × Value} (he : e ∈ es)
    (h : Contains names given item e.2) : Contains names given (.entries item) (.table es)

namespace Alike

variable {r : String → Value → Value → Prop} {es es' : List (String × Value)}

theorem keys (h : Alike r es es') : es.map Prod.fst = es'.map Prod.fst := by
  induction h with
  | nil => rfl
  | cons he _ ih => rw [List.map_cons, List.map_cons, he.1, ih]

theorem lookup (h : Alike r es es') (key : String) :
    es.lookup key = none ∧ es'.lookup key = none ∨
      ∃ v w, es.lookup key = some v ∧ es'.lookup key = some w ∧ r key v w := by
  induction h with
  | nil => exact .inl ⟨rfl, rfl⟩
  | @cons e e' es es' he _ ih =>
    obtain ⟨hkey, hvalue⟩ := he
    rw [List.lookup_cons, List.lookup_cons, ← hkey]
    cases hhere : key == e.1 with
    | true =>
      obtain rfl := eq_of_beq hhere
      exact .inr ⟨_, _, rfl, rfl, hvalue⟩
    | false => exact ih

end Alike

end Outline

namespace Decoder

structure Fits (d : Decoder α) (outline : Outline) : Prop where
  reordered : ∀ v w, v.Distinct → outline.Reordered v w → ∀ a, d v = .ok a ↔ d w = .ok a
  known : ∀ v a, v.Distinct → d v = .ok a → ∀ names given, outline.Contains names given v →
    ∀ key ∈ given.map Prod.fst, key ∈ names

theorem forall₂_iff_of_reordered {d : Decoder α} {outline : Outline} (h : d.Fits outline)
    {vs ws : List Value} (hvs : ∀ v ∈ vs, v.Distinct) (hws : List.Forall₂ outline.Reordered vs ws)
    {as : List α} :
    List.Forall₂ (fun v a => d v = .ok a) vs as ↔ List.Forall₂ (fun w a => d w = .ok a) ws as := by
  induction hws generalizing as with
  | nil => simp
  | cons hw _ ih =>
    obtain ⟨hv, hvs⟩ := List.forall_mem_cons.1 hvs
    cases as with
    | nil => simp
    | cons a as => rw [List.forall₂_cons, List.forall₂_cons, h.reordered _ _ hv hw, ih hvs]

theorem Fits.list {d : Decoder α} {outline : Outline} (h : d.Fits outline) :
    (list d).Fits (.list outline) where
  reordered := by
    rintro v w hv (_ | ⟨hws⟩) as
    · exact Iff.rfl
    · rw [Value.distinct_array_iff] at hv
      rw [Decoder.list, Decoder.list, mapM_eq_ok_iff, mapM_eq_ok_iff]
      exact forall₂_iff_of_reordered h hv hws
  known := by
    rintro _ as hv has names given (_ | _ | _ | @⟨_, vs, v, hmem, hcontains⟩)
    rw [Value.distinct_array_iff] at hv
    obtain ⟨a, ha⟩ := exists_of_mapM has hmem
    exact h.known v a (hv v hmem) ha names given hcontains

theorem Fits.entries {d : Decoder α} {outline : Outline} (h : d.Fits outline) :
    (entries d).Fits (.entries outline) where
  reordered := by
    rintro v w hv (_ | ⟨hes⟩) as
    · exact Iff.rfl
    · obtain ⟨-, hvs⟩ := Value.distinct_table_iff.1 hv
      rw [Decoder.entries, Decoder.entries, mapM_eq_ok_iff, mapM_eq_ok_iff]
      clear hv
      induction hes generalizing as with
      | nil => simp
      | @cons e e' es es' he _ ih =>
        obtain ⟨he₁, hvs⟩ := List.forall_mem_cons.1 hvs
        cases as with
        | nil => simp
        | cons a as =>
          rw [List.forall₂_cons, List.forall₂_cons, ih as hvs, map_eq_ok_iff, map_eq_ok_iff, he.1]
          simp only [h.reordered _ _ he₁ he.2]
  known := by
    rintro _ as hv has names given (_ | _ | _ | _ | ⟨hmem, hcontains⟩)
    obtain ⟨-, hvs⟩ := Value.distinct_table_iff.1 hv
    obtain ⟨a, ha⟩ := exists_of_mapM has hmem
    obtain ⟨x, hx, -⟩ := map_eq_ok_iff.1 ha
    exact h.known _ x (hvs _ hmem) hx names given hcontains

end Decoder

structure RecordField.Fits (f : RecordField α) (outline : Outline) : Prop where
  reordered : ∀ v w, v.Distinct → outline.Reordered v w →
    ∀ a b, f.set v a = .ok b ↔ f.set w a = .ok b
  known : ∀ v a b, v.Distinct → f.set v a = .ok b → ∀ names given, outline.Contains names given v →
    ∀ key ∈ given.map Prod.fst, key ∈ names

theorem RecordField.Fits.plain (f : RecordField α) : f.Fits .plain where
  reordered := by
    rintro v _ - rfl a b
    exact Iff.rfl
  known := nofun

theorem Decoder.Fits.field {d : Decoder β} {outline : Outline} (h : d.Fits outline) (p : Presence)
    (key : String) (put : α → β → α) : (RecordField.of p key d put).Fits outline where
  reordered v w hv hw a b := by
    simp only [RecordField.of_set_eq_ok_iff, h.reordered v w hv hw]
  known v a b hv hb := by
    obtain ⟨x, hx, -⟩ := RecordField.of_set_eq_ok_iff.1 hb
    exact h.known v x hv hx

namespace Schema

open RecordField (gatherAll)

variable {s : Schema α} {child : String → Outline} {given given' : List (String × Value)} {a : α}

theorem gatherAll_alike {fields : List (RecordField α)}
    (hfields : ∀ f ∈ fields, f.Fits (child f.key)) (hgiven : ∀ e ∈ given, e.2.Distinct)
    (h : Outline.Alike (fun key => (child key).Reordered) given given') (a b : α) :
    gatherAll given fields a = .ok b ↔ gatherAll given' fields a = .ok b := by
  induction fields generalizing a with
  | nil => exact Iff.rfl
  | cons f fields ih =>
    obtain ⟨hf, hfields⟩ := List.forall_mem_cons.1 hfields
    have hset (c : α) : f.gather given a = .ok c ↔ f.gather given' a = .ok c := by
      rw [RecordField.gather, RecordField.gather]
      rcases h.lookup f.key with ⟨hnone, hnone'⟩ | ⟨v, w, hv, hw, hreordered⟩
      · rw [hnone, hnone']
      · rw [hv, hw]
        exact hf.reordered v w (hgiven _ (mem_of_lookup hv)) hreordered a c
    simp only [RecordField.gatherAll_cons_eq_ok_iff, hset, ih hfields]

theorem Gives.nodup (hlaws : s.Lawful) {v : Value} (hv : v.Distinct) (h : s.Gives v given) :
    (given.map Prod.fst).Nodup := by
  cases h with
  | table => exact (Value.distinct_table_iff.1 hv).1
  | array =>
    rw [keys_zip]
    exact hlaws.keys.sublist (List.take_sublist _ _)

theorem Gives.mem_keys {v : Value} (h : s.Gives v given) {key : String}
    (hkey : key ∈ given.map Prod.fst) : key ∈ s.keys := by
  cases h with
  | table known => exact known key hkey
  | array =>
    rw [keys_zip] at hkey
    exact List.mem_of_mem_take hkey

theorem gives_table_iff {fields : List (String × Value)} :
    s.Gives (.table fields) given ↔ given = fields ∧ (∀ key ∈ given.map Prod.fst, key ∈ s.keys) ∧
      ∀ f ∈ s.fields, f.presence = .required → f.key ∈ given.map Prod.fst := by
  constructor
  · rintro ⟨known, required⟩
    exact ⟨rfl, known, required⟩
  · rintro ⟨rfl, known, required⟩
    exact .table known required

theorem gives_array_iff {vs : List Value} :
    s.Gives (.array vs) given ↔ given = s.keys.zip vs ∧
      ∀ f ∈ s.fields.drop vs.length, f.presence = .optional := by
  constructor
  · rintro (- | optional)
    exact ⟨rfl, optional⟩
  · rintro ⟨rfl, optional⟩
    exact .array optional

theorem fits (hlaws : s.Lawful) (hfields : ∀ f ∈ s.fields, f.Fits (child f.key)) :
    Decoder.Fits s.decode (.record s.keys child) where
  reordered := by
    rintro v w hv (_ | @⟨given, between, given', hperm, halike⟩ | @⟨vs, ws, halike, hrest⟩) a
    · exact Iff.rfl
    · obtain ⟨hkeys, hvalues⟩ := Value.distinct_table_iff.1 hv
      have hperm' : (given.map Prod.fst).Perm (given'.map Prod.fst) :=
        halike.keys ▸ hperm.map Prod.fst
      have hkeys' : ∀ es, Value.table given' = .table es → (es.map Prod.fst).Nodup := by
        rintro _ ⟨⟩
        exact hperm'.nodup_iff.1 hkeys
      have hvalues' : ∀ e ∈ between, e.2.Distinct := fun e he => hvalues e (hperm.symm.subset he)
      have hgathered := gatherAll_alike hfields hvalues' halike s.initial a
      rw [← RecordField.gatherAll_congr fun f _ => lookup_perm hperm hkeys f.key] at hgathered
      rw [decode_eq_ok_iff hlaws hv.keys, decode_eq_ok_iff hlaws hkeys']
      simp only [gives_table_iff, and_assoc, exists_eq_left, hgathered, hperm'.mem_iff]
    · have hvalues : ∀ e ∈ s.keys.zip vs, e.2.Distinct := fun e he =>
        Value.distinct_array_iff.1 hv _ (List.of_mem_zip he).2
      have hgathered := gatherAll_alike hfields hvalues halike s.initial a
      have hlength : vs.length = ws.length := by
        have hzip := halike.length_eq
        have hdrop := congrArg List.length hrest
        simp only [List.length_zip, List.length_drop] at hzip hdrop
        omega
      have hkeys' : ∀ es, Value.array ws = .table es → (es.map Prod.fst).Nodup := nofun
      rw [decode_eq_ok_iff hlaws hv.keys, decode_eq_ok_iff hlaws hkeys']
      simp only [gives_array_iff, and_assoc, exists_eq_left, hgathered, hlength]
  known := by
    intro v a hv ha names given hcontains
    obtain ⟨given', hgives, hgathered⟩ := (decode_eq_ok_iff hlaws hv.keys).1 ha
    have hinner {e : String × Value} (he : e ∈ given') (hv : e.2.Distinct)
        (hcontains : (child e.1).Contains names given e.2) :
        ∀ key ∈ given.map Prod.fst, key ∈ names := by
      obtain ⟨f, hf, hkey⟩ := List.mem_map.1 (hgives.mem_keys (List.mem_map_of_mem he))
      have hlookup := lookup_of_mem (hgives.nodup hlaws ‹_›) he
      obtain ⟨b, b', hset⟩ := RecordField.exists_set_of_gatherAll hgathered hf (hkey ▸ hlookup)
      exact (hfields f hf).known e.2 b b' hv hset names given (hkey ▸ hcontains)
    cases hcontains with
    | here =>
      obtain ⟨rfl, hknown, -⟩ := gives_table_iff.1 hgives
      exact hknown
    | field he hcontains =>
      obtain ⟨rfl, -⟩ := gives_table_iff.1 hgives
      exact hinner he ((Value.distinct_table_iff.1 hv).2 _ he) hcontains
    | position he hcontains =>
      obtain ⟨rfl, -⟩ := gives_array_iff.1 hgives
      exact hinner he (Value.distinct_array_iff.1 hv _ (List.of_mem_zip he).2) hcontains

theorem fits_plain (hlaws : s.Lawful) :
    Decoder.Fits s.decode (.record s.keys fun _ => .plain) :=
  fits hlaws fun f _ => .plain f

end Schema

end StagedBuilder
