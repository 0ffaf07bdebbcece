import Mathlib.Data.List.TakeWhile
import StagedBuilder.Imports

namespace StagedBuilder.ClassName

open Imports (isDotted)

theorem isDotted_iff {name : String} : isDotted name = true ↔ '.' ∈ name.toList := by
  simp [isDotted]

theorem not_isDotted_simple (name : String) : isDotted (simple name) = false := by
  rw [Bool.eq_false_iff, ne_eq, isDotted_iff, simple, String.toList_ofList, List.mem_reverse]
  intro h
  have := List.mem_takeWhile_imp h
  simp at this

theorem forall_ne_of_not_isDotted {name : String} (h : isDotted name = false) :
    ∀ c ∈ name.toList.reverse, decide (c ≠ '.') = true := by
  intro c hc
  rw [List.mem_reverse] at hc
  rw [decide_eq_true_iff]
  rintro rfl
  rw [← isDotted_iff, h] at hc
  exact Bool.false_ne_true hc

theorem simple_of_not_isDotted {name : String} (h : isDotted name = false) :
    simple name = name := by
  rw [simple, List.takeWhile_eq_self_iff.2 (forall_ne_of_not_isDotted h), List.reverse_reverse,
    String.ofList_toList]

theorem package_of_not_isDotted {name : String} (h : isDotted name = false) :
    package name = "" := by
  rw [package, List.dropWhile_eq_nil_iff.2 (forall_ne_of_not_isDotted h)]
  rfl

theorem simple_ne_of_isDotted {name other : String} (h : isDotted name = true) :
    name ≠ simple other := by
  rintro rfl
  rw [not_isDotted_simple] at h
  exact Bool.false_ne_true h

theorem package_dot_simple {name : String} (h : isDotted name = true) :
    package name ++ "." ++ simple name = name := by
  have hrest : ∃ rest, name.toList.reverse.dropWhile (· ≠ '.') = '.' :: rest := by
    cases hdrop : name.toList.reverse.dropWhile (· ≠ '.') with
    | nil =>
      have := List.dropWhile_eq_nil_iff.1 hdrop '.' (List.mem_reverse.2 (isDotted_iff.1 h))
      simp at this
    | cons c rest =>
      have hc := List.head_dropWhile_not (· ≠ '.') (l := name.toList.reverse) (by rw [hdrop]; nofun)
      simp only [hdrop, List.head_cons, decide_eq_false_iff_not, not_not] at hc
      exact ⟨rest, by rw [hc]⟩
  obtain ⟨rest, hrest⟩ := hrest
  have hsplit := List.takeWhile_append_dropWhile (p := (· ≠ '.')) (l := name.toList.reverse)
  rw [hrest] at hsplit
  apply String.toList_injective
  simp only [String.toList_append, package, simple, String.toList_ofList, hrest]
  calc
    (List.drop 1 ('.' :: rest)).reverse ++ ['.'] ++
        (name.toList.reverse.takeWhile (· ≠ '.')).reverse =
        (name.toList.reverse.takeWhile (· ≠ '.') ++ '.' :: rest).reverse := by simp
    _ = name.toList := by rw [hsplit, List.reverse_reverse]

end StagedBuilder.ClassName
