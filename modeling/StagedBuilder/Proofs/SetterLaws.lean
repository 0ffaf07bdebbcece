import Mathlib.Data.List.Basic
import StagedBuilder.Builder.Setter
import StagedBuilder.Proofs.ClassSurface

namespace StagedBuilder.Builder

open Java

def settingMoves (p : Parameter) (next : TypeRef) : List Move :=
  (if p.type.collection?.isSome then [⟨p.name, [], true, next⟩] else []) ++
    [⟨p.name, [p.typeRef], false, next⟩]

def fluentMoves (p : Parameter) (next : TypeRef) : List Move :=
  p.wrapped?.toList.map (fun inner => ⟨p.name, [(unboxed inner).1], false, next⟩) ++
    settingMoves p next

theorem type_of_wrapped {p : Parameter} {inner : TypeExpr} (h : p.wrapped? = some inner) :
    p.type = .parsed (.node optionalClass [inner]) := by
  cases ht : p.type with
  | verbatim text =>
    rw [Parameter.wrapped?, ht] at h
    cases h
  | parsed type =>
    obtain ⟨base, args⟩ := type
    rw [Parameter.wrapped?, ht, DeclaredType.wrapped?] at h
    split_ifs at h with hoptional
    rw [TypeExpr.isOptional, Bool.and_eq_true, decide_eq_true_iff, decide_eq_true_iff] at hoptional
    have hbase : base = optionalClass := hoptional.1
    obtain ⟨arg, rfl⟩ : ∃ arg, args = [arg] := List.length_eq_one_iff.1 hoptional.2
    rw [hbase, ← Option.some.inj h]

section Setters

variable {s : SupportClasses} {p : Parameter} {site : Site}

theorem moves_append (ms ms' : List Method) : moves (ms ++ ms') = moves ms ++ moves ms' :=
  List.filterMap_append

theorem moves_collector (hreached : site.next.type.reached = site.next.type) :
    moves (collector s p site) =
      if p.type.collection?.isSome then [⟨p.name, [], true, site.next.type⟩] else [] := by
  cases ht : p.type with
  | verbatim => simp [collector, ht, moves, DeclaredType.collection?]
  | parsed t =>
    cases hc : t.collection? <;>
      simp [collector, accessor, ht, hc, moves, Method.move?, DeclaredType.collection?,
        TypeRef.reached, TypeRef.isCollector, hreached]

theorem moves_setter {notice : Notice} (hreached : site.next.type.reached = site.next.type)
    (hdirect : site.next.type.isCollector = false) :
    moves [setter s p notice site] = [⟨p.name, [p.typeRef], false, site.next.type⟩] := by
  simp [moves, setter, Method.move?, hreached, hdirect, Parameter.formal]

theorem moves_valueSetter (hreached : site.next.type.reached = site.next.type)
    (hdirect : site.next.type.isCollector = false) :
    moves (valueSetter s p site) = p.wrapped?.toList.map fun inner =>
      ⟨p.name, [(unboxed inner).1], false, site.next.type⟩ := by
  cases ht : p.type with
  | verbatim => simp [valueSetter, Parameter.wrapped?, ht, moves, DeclaredType.wrapped?]
  | parsed t =>
    cases hw : p.wrapped? <;>
      simp [valueSetter, innerSetter, ht, hw, moves, Method.move?, hreached, hdirect]

theorem moves_mandatorySetters (hreached : site.next.type.reached = site.next.type)
    (hdirect : site.next.type.isCollector = false) :
    moves (mandatorySetters s p site) = settingMoves p site.next.type := by
  rw [mandatorySetters, moves_append, moves_collector hreached, moves_setter hreached hdirect,
    settingMoves]

theorem moves_fluentSetters (hreached : site.next.type.reached = site.next.type)
    (hdirect : site.next.type.isCollector = false) :
    moves (fluentSetters s p site) = fluentMoves p site.next.type := by
  rw [fluentSetters, moves_append, moves_append, moves_valueSetter hreached hdirect,
    moves_collector hreached, moves_setter hreached hdirect, fluentMoves, settingMoves,
    List.append_assoc]

theorem eq_of_mem_valueSetter {m : Method} (h : m ∈ valueSetter s p site) :
    ∃ inner, p.wrapped? = some inner ∧ m = innerSetter s p optionalClass inner site := by
  unfold valueSetter at h
  split at h
  · rename_i type inner htype hw
    rw [type_of_wrapped hw] at htype
    obtain rfl : TypeExpr.node optionalClass [inner] = type := DeclaredType.parsed.inj htype
    exact ⟨inner, hw, List.mem_singleton.1 h⟩
  · cases h

theorem eq_of_mem_collector {m : Method} (h : m ∈ collector s p site) :
    ∃ c elements, p.type.collection? = some c ∧ m = accessor s p c elements site := by
  unfold collector at h
  split at h
  · rename_i type c htype hc
    exact ⟨c, type.args, hc, List.mem_singleton.1 h⟩
  · cases h

end Setters

end StagedBuilder.Builder
