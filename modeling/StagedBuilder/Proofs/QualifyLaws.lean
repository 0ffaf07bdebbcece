import StagedBuilder.Generate
import StagedBuilder.Plan.Claims
import StagedBuilder.Proofs.ReferenceLaws

namespace StagedBuilder

open Text
open TypeExpr (qualified leaf)

namespace Reference

def IsBare (name : String) : Prop := name ∈ bareNames.map Prod.fst

def IsClass (reference : String) : Prop :=
  (ofText reference).bound = "" ∧ (ofText reference).dimensions = ""

instance (name : String) : Decidable (IsBare name) := inferInstanceAs (Decidable (_ ∈ _))

instance (reference : String) : Decidable (IsClass reference) :=
  inferInstanceAs (Decidable (_ ∧ _))

def inFull (reference : String) : String :=
  let r := ofText reference
  r.bound ++ qualified r.className ++ r.dimensions

section Bases

variable {b c : String}

theorem qualified_of_not_bare (h : ¬ IsBare b) : qualified b = b := by
  have hnone : bareNames.lookup b = none := by
    rw [List.lookup_eq_none_iff]
    intro entry he
    rw [bne_iff_ne]
    rintro rfl
    exact h (List.mem_map_of_mem he)
  rw [qualified, hnone, Option.getD_none]

theorem isClass_of_bare (h : IsBare b) :
    IsClass b ∧ IsClass (qualified b) ∧ ¬ IsBare (qualified b) := by
  have hall : ∀ name ∈ bareNames.map Prod.fst,
      IsClass name ∧ IsClass (qualified name) ∧ ¬ IsBare (qualified name) := by decide +kernel
  exact hall b h

theorem IsClass.className (h : IsClass b) (htrim : trim b.toList = b.toList) :
    (ofText b).className = b := by
  have htext := trim_of_no_bound h.1
  rw [htrim, ← String.toList_append, String.toList_inj, h.2, String.append_empty] at htext
  exact htext.symm

theorem inFull_of_isClass (h : IsClass b) (htrim : trim b.toList = b.toList) :
    inFull b = qualified b := by
  simp only [inFull, h.1, h.2, h.className htrim, String.empty_append, String.append_empty]

theorem isBare_qualified_iff (htrim : trim b.toList = b.toList) :
    IsBare (ofText (qualified b)).className ↔ IsBare (ofText b).className ∧ ¬ IsClass b := by
  by_cases hb : IsBare b
  · obtain ⟨hclass, hfull, hnot⟩ := isClass_of_bare hb
    have hname : (ofText (qualified b)).className = qualified b := by
      have hall : ∀ name ∈ bareNames.map Prod.fst,
          (ofText (qualified name)).className = qualified name := by decide +kernel
      exact hall b hb
    rw [hname]
    exact ⟨fun h => absurd h hnot, fun h => absurd hclass h.2⟩
  · rw [qualified_of_not_bare hb]
    refine ⟨fun h => ⟨h, fun hclass => hb ?_⟩, And.left⟩
    rwa [hclass.className htrim] at h

theorem qualified_eq_iff (hb : trim b.toList = b.toList) (hc : trim c.toList = c.toList)
    (h : inFull b = inFull c) : qualified b = qualified c ↔ b = c ∨ IsClass b ∧ IsClass c := by
  constructor
  · intro heq
    by_cases hbare : IsBare b
    · obtain ⟨hclass, hfull, -⟩ := isClass_of_bare hbare
      refine .inr ⟨hclass, ?_⟩
      by_cases hbare' : IsBare c
      · exact (isClass_of_bare hbare').1
      · rwa [← qualified_of_not_bare hbare', ← heq]
    · by_cases hbare' : IsBare c
      · obtain ⟨hclass, hfull, -⟩ := isClass_of_bare hbare'
        refine .inr ⟨?_, hclass⟩
        rwa [← qualified_of_not_bare hbare, heq]
      · rw [qualified_of_not_bare hbare, qualified_of_not_bare hbare'] at heq
        exact .inl heq
  · rintro (rfl | ⟨hclass, hclass'⟩)
    · rfl
    · rw [← inFull_of_isClass hclass hb, ← inFull_of_isClass hclass' hc, h]

end Bases

end Reference

namespace TypeExpr

open Reference (IsBare IsClass inFull ofText)

/-- Types that name the same classes, those of `java.util` with or without their package. -/
def SameInFull (t u : TypeExpr) : Prop := t.mapBases inFull = u.mapBases inFull

instance (t u : TypeExpr) : Decidable (t.SameInFull u) := inferInstanceAs (Decidable (_ = _))

/-- Types that name a class differently only where it has no bound and no array suffixes. -/
def ClassesApart (t u : TypeExpr) : Prop :=
  List.Forall₂ (fun b c => b = c ∨ IsClass b ∧ IsClass c) t.bases u.bases

theorem qualify_eq_iff {t u : TypeExpr} (ht : ∀ b ∈ t.bases, trim b.toList = b.toList)
    (hu : ∀ b ∈ u.bases, trim b.toList = b.toList) (h : SameInFull t u) :
    t.qualify = u.qualify ↔ ClassesApart t u := by
  have hshape := shape_of_mapBases h
  have hfull := (mapBases_eq_iff hshape).1 h
  rw [qualify_eq_mapBases, qualify_eq_mapBases, mapBases_eq_iff hshape, ClassesApart]
  rw [List.forall₂_iff_get] at hfull ⊢
  rw [List.forall₂_iff_get, and_congr_right_iff]
  intro _
  refine forall₃_congr fun i hi hi' => ?_
  exact Reference.qualified_eq_iff (ht _ (List.get_mem _ _)) (hu _ (List.get_mem _ _))
    (hfull.2 i hi hi')

def SameType (s s' : String) : Prop :=
  ∃ t u, parse s = .ok t ∧ parse s' = .ok u ∧ SameInFull t u ∧ ClassesApart t u

end TypeExpr

def ParameterDecl.Respelled (d d' : ParameterDecl) : Prop :=
  ∃ type, d' = { d with type := type } ∧
    (type = d.type ∨ d.verbatim = false ∧ TypeExpr.SameType d.type type)

def ConstructorDecl.Respelled (c c' : ConstructorDecl) : Prop :=
  ∃ params, c' = { c with params := params } ∧
    List.Forall₂ ParameterDecl.Respelled c.params params

def TypeDecl.Respelled (d d' : TypeDecl) : Prop :=
  ∃ params constructors, d' = { d with params := params, constructors := constructors } ∧
    List.Forall₂ ParameterDecl.Respelled d.params params ∧
    List.Forall₂ ConstructorDecl.Respelled d.constructors constructors

def Manifest.Respelled (m m' : Manifest) : Prop :=
  ∃ types, m' = { m with types := types } ∧
    List.Forall₂ (fun e e' => e'.1 = e.1 ∧ e.2.Respelled e'.2) m.types types

section Declarations

theorem ParameterDecl.Respelled.ofDecl {d d' : ParameterDecl} (h : d.Respelled d') :
    Parameter.ofDecl d' = Parameter.ofDecl d := by
  obtain ⟨type, rfl, rfl | ⟨hverbatim, t, u, ht, hu, hfull, hapart⟩⟩ := h
  · rfl
  · have hqualify := (TypeExpr.qualify_eq_iff (TypeExpr.trimmed_of_parse ht)
      (TypeExpr.trimmed_of_parse hu) hfull).2 hapart
    simp only [Parameter.ofDecl, hverbatim, ht, hu, Functor.map, Except.map, hqualify]
    rfl

theorem mapM_ofDecl_respelled {ds ds' : List ParameterDecl}
    (h : List.Forall₂ ParameterDecl.Respelled ds ds') :
    ds'.mapM Parameter.ofDecl = ds.mapM Parameter.ofDecl := by
  induction h with
  | nil => rfl
  | cons hd _ ih => rw [List.mapM_cons, List.mapM_cons, hd.ofDecl, ih]

theorem ConstructorDecl.Respelled.params {c c' : ConstructorDecl} (h : c.Respelled c') :
    List.Forall₂ ParameterDecl.Respelled c.params c'.params := by
  obtain ⟨params, rfl, hparams⟩ := h
  exact hparams

theorem ConstructorDecl.Respelled.designated {c c' : ConstructorDecl} (h : c.Respelled c') :
    c.designated = c'.designated := by
  obtain ⟨params, rfl, -⟩ := h
  rfl

theorem selectConstructor_respelled (type : String) {cs cs' : List ConstructorDecl}
    (h : List.Forall₂ ConstructorDecl.Respelled cs cs') :
    (∃ e, selectConstructor type cs = .error e ∧ selectConstructor type cs' = .error e) ∨
      ∃ c c', selectConstructor type cs = .ok c ∧ selectConstructor type cs' = .ok c' ∧
        c.Respelled c' := by
  have hdesignated : List.Forall₂ ConstructorDecl.Respelled (cs.filter (·.designated))
      (cs'.filter (·.designated)) :=
    List.rel_filter (fun c c' hc => by simp only [hc.designated]) h
  have hlengths : cs.map (·.params.length) = cs'.map (·.params.length) := by
    rw [← List.forall₂_eq_eq_eq, List.forall₂_map_left_iff, List.forall₂_map_right_iff]
    exact h.imp fun _ _ hc => hc.params.length_eq
  have hlongest : List.Forall₂ ConstructorDecl.Respelled
      (cs.filter fun c => cs.all (·.params.length ≤ c.params.length))
      (cs'.filter fun c => cs'.all (·.params.length ≤ c.params.length)) := by
    refine List.rel_filter (fun c c' hc => ?_) h
    have hall : ∀ (ds : List ConstructorDecl) (n : Nat), ds.all (·.params.length ≤ n) =
        (ds.map (·.params.length)).all (· ≤ n) := fun ds n => by rw [List.all_map]; rfl
    simp only [hall, hlengths, hc.params.length_eq]
  unfold selectConstructor
  generalize cs.filter (·.designated) = ds, cs'.filter (·.designated) = ds' at hdesignated
  generalize (cs.filter fun c => cs.all (·.params.length ≤ c.params.length)) = ls,
    (cs'.filter fun c => cs'.all (·.params.length ≤ c.params.length)) = ls' at hlongest
  match hdesignated with
  | .cons hc .nil => exact .inr ⟨_, _, rfl, rfl, hc⟩
  | .cons _ (.cons _ hds) => exact .inl ⟨_, rfl, by simp [hds.length_eq]⟩
  | .nil =>
    match hlongest with
    | .nil => exact .inl ⟨_, rfl, rfl⟩
    | .cons hc .nil => exact .inr ⟨_, _, rfl, rfl, hc⟩
    | .cons hc (.cons _ _) => exact .inl ⟨_, rfl, by simp [hc.params.length_eq]⟩

theorem TypeDecl.Respelled.signature (name : String) {d d' : TypeDecl} (h : d.Respelled d') :
    (∃ e, Plan.signature name d = .error e ∧ Plan.signature name d' = .error e) ∨
      ∃ v ps ps', Plan.signature name d = .ok (v, ps) ∧ Plan.signature name d' = .ok (v, ps') ∧
        List.Forall₂ ParameterDecl.Respelled ps ps' := by
  obtain ⟨params, constructors, rfl, hparams, hconstructors⟩ := h
  cases hkind : d.kind with
  | plainClass =>
    rcases selectConstructor_respelled name hconstructors with
      ⟨e, he, he'⟩ | ⟨c, _, hc, hc', later, rfl, hlater⟩
    · exact .inl ⟨e, by simp [Plan.signature, hkind, he, Except.map],
        by simp [Plan.signature, he', Except.map]⟩
    · exact .inr ⟨c.visibility, c.params, later, by simp [Plan.signature, hkind, hc, Except.map],
        by simp [Plan.signature, hc', Except.map], hlater⟩
  | record =>
    exact .inr ⟨d.visibility, d.params, params, by simp [Plan.signature, hkind],
      by simp [Plan.signature], hparams⟩
  | interface =>
    exact .inr ⟨d.visibility, d.params, params, by simp [Plan.signature, hkind],
      by simp [Plan.signature], hparams⟩

theorem TypeDecl.Respelled.ofDecl (defaults : Defaults) (name : String) {d d' : TypeDecl}
    (h : d.Respelled d') : Plan.ofDecl defaults name d' = Plan.ofDecl defaults name d := by
  have hsignature := h.signature name
  obtain ⟨params, constructors, rfl, -, -⟩ := h
  rcases hsignature with ⟨e, he, he'⟩ | ⟨v, ps, ps', hs, hs', hps⟩
  · rw [Plan.ofDecl, Plan.ofDecl, he, he']
    rfl
  · rw [Plan.ofDecl, Plan.ofDecl, hs, hs']
    simp only [bind, Except.bind, mapM_ofDecl_respelled hps]
    rfl

theorem plansAfter_respelled (defaults : Defaults) (claims : Claims)
    {types types' : List (String × TypeDecl)}
    (h : List.Forall₂ (fun e e' => e'.1 = e.1 ∧ e.2.Respelled e'.2) types types') :
    Manifest.plansAfter defaults claims types' = Manifest.plansAfter defaults claims types := by
  induction h generalizing claims with
  | nil => rfl
  | @cons e e' es es' he _ ih =>
    obtain ⟨name, d⟩ := e
    obtain ⟨_, d'⟩ := e'
    obtain ⟨rfl, hd⟩ := he
    simp only [Manifest.plansAfter, hd.ofDecl, ih]

theorem Manifest.Respelled.plans {m m' : Manifest} (h : m.Respelled m') : m'.plans = m.plans := by
  obtain ⟨types, rfl, htypes⟩ := h
  exact plansAfter_respelled _ _ htypes

end Declarations

open Reference (IsBare IsClass ofText)
open TypeExpr (SameInFull ClassesApart)

/-- A bare name of `java.util` is given its package exactly where no bound and no array suffixes
stand at it. Where this is so it does not matter to a type whether the package is written, and all
that is generated is the same. -/
theorem bare_classes_found {s s' : String} {t u : TypeExpr} (ht : TypeExpr.parse s = .ok t)
    (hu : TypeExpr.parse s' = .ok u) :
    ((∀ b ∈ t.qualify.bases, ¬ IsBare (ofText b).className) ↔
      ∀ b ∈ t.bases, IsBare (ofText b).className → IsClass b) ∧
    (SameInFull t u → (t.qualify = u.qualify ↔ ClassesApart t u)) ∧
    ∀ m m' : Manifest, m.Respelled m' →
      m'.plans.map (synthesize (.ofManifest m')) = m.plans.map (synthesize (.ofManifest m)) := by
  have htrim := TypeExpr.trimmed_of_parse ht
  refine ⟨?_, TypeExpr.qualify_eq_iff htrim (TypeExpr.trimmed_of_parse hu), ?_⟩
  · rw [TypeExpr.qualify_eq_mapBases, TypeExpr.bases_mapBases, List.forall_mem_map]
    refine forall₂_congr fun b hb => ?_
    rw [Reference.isBare_qualified_iff (htrim b hb), not_and_not_right]
  · intro m m' h
    have hplans := h.plans
    obtain ⟨types, rfl, -⟩ := h
    rw [hplans]
    rfl

def shelf (type : String) : Manifest where
  types := [("me.Shelf", { kind := .record, params := [{ name := "books", type := type }] })]

theorem shelf_found :
    let t : TypeExpr := .node "Map" [leaf "String", .node "List" [leaf "int[]"]]
    let u : TypeExpr := .node "java.util.Map" [leaf "String", .node "java.util.List" [leaf "int[]"]]
    TypeExpr.parse "Map<String, List<int[]>>" = .ok t ∧
      TypeExpr.parse "java.util.Map<String, java.util.List<int[]>>" = .ok u ∧
      (∀ b ∈ t.qualify.bases, ¬ IsBare (ofText b).className) ∧ t.qualify = u.qualify ∧
      (shelf "java.util.Map<String, java.util.List<int[]>>").plans.map (synthesize {}) =
        (shelf "Map<String, List<int[]>>").plans.map (synthesize {}) := by
  intro t u
  have ht : TypeExpr.parse "Map<String, List<int[]>>" = .ok t := by decide +kernel
  have hu : TypeExpr.parse "java.util.Map<String, java.util.List<int[]>>" = .ok u := by
    decide +kernel
  have hfull : t.SameInFull u := by decide +kernel
  have hapart : ClassesApart t u :=
    .cons (.inr (by decide)) (.cons (.inl rfl) (.cons (.inr (by decide)) (.cons (.inl rfl) .nil)))
  have hrespelled : (shelf "Map<String, List<int[]>>").Respelled
      (shelf "java.util.Map<String, java.util.List<int[]>>") := by
    refine ⟨_, rfl, .cons ⟨rfl, _, _, rfl, .cons ?_ .nil, .nil⟩ .nil⟩
    exact ⟨_, rfl, .inr ⟨rfl, t, u, ht, hu, hfull, hapart⟩⟩
  obtain ⟨hfound, hspelled, hgenerated⟩ := bare_classes_found ht hu
  exact ⟨ht, hu, hfound.2 (by decide +kernel), (hspelled hfull).2 hapart,
    hgenerated _ _ hrespelled⟩

def crate (type : TypeExpr) : Builder where
  target := "me.Crate"
  name := "me.builder.CrateBuilder"
  params := [{ name := "contents", type := .parsed type.qualify }]
  construction := .direct

theorem crate_not_found :
    (¬ ∀ s t, TypeExpr.parse s = .ok t → ∀ b ∈ t.qualify.bases, ¬ IsBare (ofText b).className) ∧
    ¬ ∀ s t s' u, TypeExpr.parse s = .ok t → TypeExpr.parse s' = .ok u → SameInFull t u →
      (((crate u).unit {}).imports (crate u).ownNames).imported =
        (((crate t).unit {}).imports (crate t).ownNames).imported := by
  constructor
  · intro h
    let t : TypeExpr := .node "Collection" [.node "? extends List" [leaf "String"]]
    have ht : TypeExpr.parse "Collection<? extends List<String>>" = .ok t := by decide +kernel
    exact h _ t ht "? extends List" (by decide +kernel) (by decide +kernel)
  · intro h
    have hsame := h "List[]" (leaf "List[]") "java.util.List[]" (leaf "java.util.List[]")
      (by decide +kernel) (by decide +kernel) (by decide +kernel)
    have hfull : "java.util.List" ∈ (((crate (leaf "java.util.List[]")).unit {}).imports
        (crate (leaf "java.util.List[]")).ownNames).imported :=
      (Imports.mem_imported Builder.coherent_imports).2 (by decide +kernel)
    rw [hsame, Imports.mem_imported Builder.coherent_imports] at hfull
    revert hfull
    decide +kernel

end StagedBuilder
