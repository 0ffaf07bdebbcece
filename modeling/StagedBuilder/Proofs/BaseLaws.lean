import StagedBuilder.Proofs.TypeLaws
import StagedBuilder.Proofs.TypeRoundTrip

namespace StagedBuilder.TypeExpr

open Text

mutual

def mapBases (f : String → String) : TypeExpr → TypeExpr
  | .node base args => .node (f base) (mapBasesAll f args)

def mapBasesAll (f : String → String) : List TypeExpr → List TypeExpr
  | [] => []
  | a :: as => a.mapBases f :: mapBasesAll f as

end

def shape (t : TypeExpr) : TypeExpr := t.mapBases fun _ => ""

theorem argument_induction {motive : TypeExpr → Prop}
    (node : ∀ base args, (∀ a ∈ args, motive a) → motive (.node base args)) (t : TypeExpr) :
    motive t :=
  @TypeExpr.rec motive (fun args => ∀ a ∈ args, motive a) node nofun
    (fun _ _ ha has => List.forall_mem_cons.2 ⟨ha, has⟩) t

section Bases

variable {f g : String → String} {base : String} {args : List TypeExpr}

theorem mapBasesAll_eq_map (f : String → String) (ts : List TypeExpr) :
    mapBasesAll f ts = ts.map (·.mapBases f) := by
  induction ts with
  | nil => rfl
  | cons t ts ih => rw [mapBasesAll, ih, List.map_cons]

theorem mapBases_node (f : String → String) (base : String) (args : List TypeExpr) :
    (node base args).mapBases f = node (f base) (args.map (·.mapBases f)) := by
  rw [mapBases, mapBasesAll_eq_map]

theorem bases_mapBases (f : String → String) (t : TypeExpr) :
    (t.mapBases f).bases = t.bases.map f := by
  induction t using argument_induction with
  | node base args ih =>
    rw [mapBases_node, bases_node, bases_node, List.map_cons, List.flatMap_map, List.map_flatMap]
    exact congrArg _ (List.flatMap_congr ih)

theorem renderWith_node (f : String → String) (base : String) {args : List TypeExpr}
    (h : args ≠ []) :
    (node base args).renderWith f =
      f base ++ "<" ++ ", ".intercalate (args.map (·.renderWith f)) ++ ">" := by
  obtain ⟨a, as, rfl⟩ := List.exists_cons_of_ne_nil h
  rw [renderWith, renderAllWith_eq_map, List.map_cons]

theorem renderWith_mapBases (f g : String → String) (t : TypeExpr) :
    (t.mapBases f).renderWith g = t.renderWith (g ∘ f) := by
  induction t using argument_induction with
  | node base args ih =>
    cases args with
    | nil => rfl
    | cons a as =>
      have hargs : ((a :: as).map (·.mapBases f)).map (·.renderWith g) =
          (a :: as).map (·.renderWith (g ∘ f)) := by
        rw [List.map_map]
        exact List.map_congr_left ih
      rw [mapBases_node, renderWith_node _ _ (by simp), renderWith_node _ _ (List.cons_ne_nil a as),
        hargs]
      rfl

theorem mapBases_mapBases (f g : String → String) (t : TypeExpr) :
    (t.mapBases f).mapBases g = t.mapBases (g ∘ f) := by
  induction t using argument_induction with
  | node base args ih =>
    rw [mapBases_node, mapBases_node, mapBases_node, List.map_map]
    exact congrArg _ (List.map_congr_left ih)

theorem length_bases_of_shape {t u : TypeExpr} (h : t.shape = u.shape) :
    t.bases.length = u.bases.length := by
  have hlength := congrArg (·.bases.length) h
  simpa only [shape, bases_mapBases, List.length_map] using hlength

theorem eq_of_shape {t u : TypeExpr} (hshape : t.shape = u.shape) (hbases : t.bases = u.bases) :
    t = u := by
  induction t using argument_induction generalizing u with
  | node base args ih =>
    obtain ⟨base', args'⟩ := u
    rw [shape, shape, mapBases_node, mapBases_node, node.injEq] at hshape
    rw [bases_node, bases_node] at hbases
    obtain ⟨rfl, hrest⟩ := List.cons.inj hbases
    have hargs := hshape.2
    congr 1
    clear hbases hshape
    induction args generalizing args' with
    | nil => exact (List.map_eq_nil_iff.1 hargs.symm).symm
    | cons a as ihas =>
      cases args' with
      | nil => cases hargs
      | cons a' as' =>
        obtain ⟨hfirst, hothers⟩ := List.cons.inj hargs
        rw [List.flatMap_cons, List.flatMap_cons] at hrest
        obtain ⟨hbases, hrest⟩ := List.append_inj hrest (length_bases_of_shape hfirst)
        rw [ih a List.mem_cons_self hfirst hbases,
          ihas (fun b hb => ih b (List.mem_cons_of_mem _ hb)) as' hrest hothers]

theorem mapBases_eq_iff {t u : TypeExpr} (h : t.shape = u.shape) :
    t.mapBases f = u.mapBases g ↔ List.Forall₂ (fun b c => f b = g c) t.bases u.bases := by
  have hshape : (t.mapBases f).shape = (u.mapBases g).shape := by
    rw [shape, shape, mapBases_mapBases, mapBases_mapBases]
    exact h
  rw [← List.forall₂_map_right_iff (f := g), ← List.forall₂_map_left_iff (f := f),
    List.forall₂_eq_eq_eq, ← bases_mapBases, ← bases_mapBases]
  exact ⟨fun heq => heq ▸ rfl, eq_of_shape hshape⟩

theorem shape_of_mapBases {t u : TypeExpr} (h : t.mapBases f = u.mapBases g) :
    t.shape = u.shape := by
  have hshape := congrArg shape h
  rw [shape, shape, mapBases_mapBases, mapBases_mapBases] at hshape
  exact hshape

theorem qualify_eq_mapBases (t : TypeExpr) : t.qualify = t.mapBases qualified := by
  induction t using argument_induction with
  | node base args ih => rw [qualify_node, mapBases_node, List.map_congr_left ih]

end Bases

theorem IsCanonical.isBase {t : TypeExpr} (h : IsCanonical t) : ∀ b ∈ t.bases, IsBase b := by
  induction h with
  | leaf proper => exact List.forall_mem_singleton.2 proper
  | node proper named args_ne arguments canonical ih =>
    rw [bases_node, List.forall_mem_cons, List.forall_mem_flatMap]
    exact ⟨proper, ih⟩

theorem trimmed_of_parse {s : String} {t : TypeExpr} (h : parse s = .ok t) :
    ∀ b ∈ t.bases, trim b.toList = b.toList :=
  fun b hb => ((isCanonical_of_denotes (denotes_of_parse h)).isBase b hb).trimmed

end StagedBuilder.TypeExpr
