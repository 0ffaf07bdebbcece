import StagedBuilder.TypeExpr

namespace StagedBuilder.TypeExpr

mutual

theorem map_snd_preorder (t : TypeExpr) (depth : Nat) : (t.preorder depth).map Prod.snd = t.bases :=
  match t with
  | .node base args => by
    simp only [bases, preorder, List.map_cons]
    rw [map_snd_preorderAll args (depth + 1), map_snd_preorderAll args 1]

theorem map_snd_preorderAll (ts : List TypeExpr) (depth : Nat) :
    (preorderAll ts depth).map Prod.snd = ts.flatMap bases :=
  match ts with
  | [] => rfl
  | t :: ts => by
    simp only [preorderAll, List.map_append, List.flatMap_cons]
    rw [map_snd_preorder t depth, map_snd_preorderAll ts depth]

end

theorem bases_node (base : String) (args : List TypeExpr) :
    (node base args).bases = base :: args.flatMap bases := by
  rw [bases, preorder, List.map_cons, map_snd_preorderAll]

mutual

theorem renderWith_congr {f g : String → String} (t : TypeExpr) (h : ∀ b ∈ t.bases, f b = g b) :
    t.renderWith f = t.renderWith g :=
  match t with
  | .node base [] => h base (by simp [bases_node])
  | .node base (a :: as) => by
    rw [bases_node] at h
    simp only [renderWith]
    rw [h base List.mem_cons_self, renderWith_congr a fun b hb => h b (by simp [hb]),
      renderAllWith_congr as fun b hb => h b (by simp_all)]

theorem renderAllWith_congr {f g : String → String} (ts : List TypeExpr)
    (h : ∀ b ∈ ts.flatMap bases, f b = g b) : renderAllWith f ts = renderAllWith g ts :=
  match ts with
  | [] => rfl
  | t :: ts => by
    rw [List.flatMap_cons] at h
    rw [renderAllWith, renderWith_congr t fun b hb => h b (List.mem_append_left _ hb),
      renderAllWith_congr ts fun b hb => h b (List.mem_append_right _ hb), renderAllWith]

end

end StagedBuilder.TypeExpr
