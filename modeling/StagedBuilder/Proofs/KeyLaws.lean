import Mathlib.Data.List.Nodup
import Mathlib.Data.List.Perm.Basic

namespace StagedBuilder

variable {α : Type} {es es' : List (String × α)} {key : String} {a : α}

theorem mem_of_lookup (h : es.lookup key = some a) : (key, a) ∈ es := by
  obtain ⟨before, after, rfl, -⟩ := List.lookup_eq_some_iff.1 h
  simp

theorem lookup_eq_none_iff : es.lookup key = none ↔ key ∉ es.map Prod.fst := by
  rw [List.lookup_eq_none_iff, List.mem_map, not_exists]
  refine forall_congr' fun e => ?_
  rw [not_and, bne_iff_ne, ne_comm]

theorem lookup_of_mem (hkeys : (es.map Prod.fst).Nodup) {e : String × α} (he : e ∈ es) :
    es.lookup e.1 = some e.2 := by
  cases hkey : es.lookup e.1 with
  | none => exact absurd (List.mem_map_of_mem he) (lookup_eq_none_iff.1 hkey)
  | some a => rw [List.inj_on_of_nodup_map hkeys he (mem_of_lookup hkey) rfl]

theorem lookup_perm (h : es.Perm es') (hkeys : (es.map Prod.fst).Nodup) (key : String) :
    es.lookup key = es'.lookup key := by
  have hkeys' : (es'.map Prod.fst).Nodup := (h.map Prod.fst).nodup_iff.1 hkeys
  cases hkey : es.lookup key with
  | some a => exact (lookup_of_mem hkeys' (h.subset (mem_of_lookup hkey))).symm
  | none =>
    rw [lookup_eq_none_iff] at hkey
    exact (lookup_eq_none_iff.2 fun hmem => hkey ((h.map Prod.fst).symm.subset hmem)).symm

theorem keys_zip (keys : List String) (as : List α) :
    (keys.zip as).map Prod.fst = keys.take as.length := by
  induction keys generalizing as with
  | nil => simp
  | cons key keys ih =>
    cases as with
    | nil => rfl
    | cons a as => rw [List.zip_cons_cons, List.map_cons, ih, List.length_cons, List.take_succ_cons]

end StagedBuilder
