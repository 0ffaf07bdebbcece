import StagedBuilder.Proofs.EntryLaws
import StagedBuilder.Proofs.OwnNames

/-!
When a class and a name without dots are written alike. A name without dots stands as it is, so this
is decided by the class: it is written short if it comes into use before all else that its simple
name could stand for. A name that is used by itself before the class is safe, a later one is not.
-/

namespace StagedBuilder

open ClassName (simple package simple_ne_of_isDotted simple_of_not_isDotted)

namespace Imports

/-- Nothing stands for the simple name of the class when the class comes into use. -/
def ComesFirst (owner : String) (es : List NameEvent) (q : String) : Prop :=
  simple owner ≠ simple q ∧ es.find? (fun e => e.simple = simple q) = some (.use q)

section Sharing

variable {i : Imports} {owner u q : String} {es before later : List NameEvent}

theorem nameOf_of_not_isDotted (h : Coherent i) (hu : isDotted u = false) : i.nameOf u = u := by
  by_contra hshort
  have hdotted := h.dotted _ (Coherent.mem_of_nameOf_ne hshort)
  rw [hu] at hdotted
  cases hdotted

theorem nameOf_eq_simple_iff (hd : isDotted q = true) (hused : .use q ∈ es) :
    ((ofOwner owner).applyAll es).nameOf q = simple q ↔ ComesFirst owner es q := by
  obtain ⟨before, later, rfl, hnew⟩ := List.eq_append_cons_of_mem hused
  rw [nameOf_of_first_use owner hnew hd, ComesFirst, List.find?_append]
  have hself : (.use q :: later : List NameEvent).find? (fun e => e.simple = simple q) =
      some (.use q) := by
    rw [List.find?_cons_of_pos]
    simp [NameEvent.simple]
  cases hfind : before.find? (fun e => e.simple = simple q) with
  | some e =>
    have he : e ∈ before := List.mem_of_find?_eq_some hfind
    have hsimple : e.simple = simple q := by simpa using List.find?_some hfind
    have hother : e ≠ .use q := fun heq => hnew (heq ▸ he)
    rw [if_pos (.inr ⟨e, he, hsimple⟩)]
    simp [hother, simple_ne_of_isDotted hd]
  | none =>
    have hfree : ¬ ∃ e ∈ before, e.simple = simple q := by
      simpa [List.find?_eq_none] using hfind
    simp only [hfree, or_false, hself, Option.none_or, and_true]
    by_cases howner : simple owner = simple q
    · simp [howner, simple_ne_of_isDotted hd]
    · simp [howner]

theorem not_comesFirst (hu : isDotted u = false) (hd : isDotted q = true) (hname : simple q = u)
    (hnew : .use q ∉ before) : ¬ ComesFirst owner (before ++ .use u :: later) q := by
  intro hfirst
  have hself : (.use u :: later : List NameEvent).find? (fun e => e.simple = simple q) =
      some (.use u) := by
    rw [List.find?_cons_of_pos]
    simp [NameEvent.simple, simple_of_not_isDotted hu, hname]
  have hfind := hfirst.2
  rw [List.find?_append, hself] at hfind
  cases hbefore : before.find? (fun e => e.simple = simple q) with
  | some e =>
    rw [hbefore, Option.some_or, Option.some.injEq] at hfind
    exact hnew (hfind ▸ List.mem_of_find?_eq_some hbefore)
  | none =>
    rw [hbefore, Option.none_or, Option.some.injEq, NameEvent.use.injEq] at hfind
    rw [hfind, hd] at hu
    cases hu

theorem resolve_of_imported (h : Coherent i) (hq : q ∈ i.imported) (own : Bool) :
    i.resolve own (simple q) = q := by
  have hsome : (i.imported.find? fun q' => simple q' = simple q).isSome = true := by
    rw [List.find?_isSome]
    exact ⟨q, hq, by simp⟩
  obtain ⟨q', hfind⟩ := Option.isSome_iff_exists.1 hsome
  have hsimple : simple q' = simple q := by simpa using List.find?_some hfind
  rw [resolve, hfind]
  exact List.inj_on_of_nodup_map (nodup_map_simple_imported h) (List.mem_of_find?_eq_some hfind)
    hq hsimple

theorem display_eq_iff {reference reference' : String}
    (h : Reference.ofText reference' = { Reference.ofText reference with className := u }) :
    i.display reference = i.display reference' ↔
      i.nameOf (Reference.ofText reference).className = i.nameOf u := by
  rw [display, display, h]
  simp [String.append_assoc]

end Sharing

end Imports

namespace Java.SourceUnit

variable {u : SourceUnit} {owner q t : String} {reserved : List String}

def events (u : SourceUnit) (reserved : List String) : List NameEvent :=
  reserved.map .reserve ++ u.uses.map .ofReference

theorem imports_ofOwner :
    u.imports ((Imports.ofOwner owner).applyAll (reserved.map .reserve)) =
      (Imports.ofOwner owner).applyAll (u.events reserved) := by
  rw [imports, Imports.noteAll_eq, ← Imports.applyAll_append, events]

def leading (u : SourceUnit) : List String :=
  u.marker :: u.interface.toList ++ u.favoured.toList

theorem uses_of_fields {fields : List Field} (h : u.fields = some fields) :
    u.uses = u.leading ++ fields.flatMap (·.uses) ++ u.members.flatMap (·.uses) := by
  rw [uses, h, leading]
  rfl

def Unqualifies (reference reference' : String) : Prop :=
  Imports.isDotted (Reference.ofText reference).className = true ∧
    Reference.ofText reference' =
      { Reference.ofText reference with className := simple (Reference.ofText reference).className }

theorem Unqualifies.display_eq_iff {reference reference' : String}
    (h : Unqualifies reference reference') (hused : reference ∈ u.uses) :
    ((Imports.ofOwner owner).applyAll (u.events reserved)).display reference =
        ((Imports.ofOwner owner).applyAll (u.events reserved)).display reference' ↔
      Imports.ComesFirst owner (u.events reserved) (Reference.ofText reference).className := by
  obtain ⟨hd, hother⟩ := h
  have hcoherent := (Imports.Coherent.ofOwner owner).applyAll (u.events reserved)
  have hevent : NameEvent.ofReference reference ∈ u.events reserved :=
    List.mem_append_right _ (List.mem_map_of_mem hused)
  rw [Imports.display_eq_iff hother,
    Imports.nameOf_of_not_isDotted hcoherent (ClassName.not_isDotted_simple _)]
  exact Imports.nameOf_eq_simple_iff hd hevent

theorem Unqualifies.ne {reference reference' : String} (h : Unqualifies reference reference') :
    reference ≠ reference' := by
  intro heq
  obtain ⟨hd, hother⟩ := h
  rw [← heq] at hother
  exact simple_ne_of_isDotted hd (congrArg Reference.className hother)

/-- How the types of two parameters are written that are a class and its simple name alone. -/
structure WritesApart (u : SourceUnit) (start : Imports) (owner : String) (reserved : List String)
    (params : List Parameter) : Prop where
  alike : ∀ p ∈ params, ∀ p' ∈ params, ∀ t t', p.type = .parsed (.leaf t) →
    p'.type = .parsed (.leaf t') → Unqualifies t t' →
    (p.typeRef.text (u.imports start).display = p'.typeRef.text (u.imports start).display ↔
      Imports.ComesFirst owner (u.events reserved) (Reference.ofText t).className)
  apart : ∀ before p' later, params = before ++ p' :: later → ∀ p ∈ params, ∀ t t',
    p.type = .parsed (.leaf t) → p'.type = .parsed (.leaf t') → Unqualifies t t' →
    (∀ r ∈ u.leading ++ before.flatMap (·.typeRef.uses),
      (Reference.ofText r).className ≠ (Reference.ofText t).className) →
    p.typeRef.text (u.imports start).display ≠ p'.typeRef.text (u.imports start).display

section WritesApart

variable {start : Imports} {params : List Parameter} {p : Parameter}

theorem text_typeRef (names : Names) (h : p.type = .parsed (.leaf t)) :
    p.typeRef.text names = names t := by
  rw [Parameter.typeRef, h]
  rfl

theorem uses_typeRef (h : p.type = .parsed (.leaf t)) : p.typeRef.uses = [t] := by
  rw [Parameter.typeRef, h]
  rfl

def Declares (declare : Parameter → Field) : Prop :=
  ∀ p, ∃ more, (declare p).uses = p.typeRef.uses ++ more ∧ more ⊆ p.typeRef.uses

theorem uses_declared {declare : Parameter → Field} (hdeclare : Declares declare)
    (hfields : u.fields = some (params.map declare)) {before later : List Parameter}
    (hparams : params = before ++ p :: later) (ht : p.type = .parsed (.leaf t)) :
    ∃ earlier rest, u.uses = u.leading ++ earlier ++ t :: rest ∧
      earlier ⊆ before.flatMap (·.typeRef.uses) := by
  obtain ⟨more, hmore, -⟩ := hdeclare p
  refine ⟨(before.map declare).flatMap (·.uses), more ++ (later.map declare).flatMap (·.uses) ++
    u.members.flatMap (·.uses), ?_, ?_⟩
  · rw [uses_of_fields hfields, hparams, List.map_append, List.flatMap_append, List.map_cons,
      List.flatMap_cons, hmore, uses_typeRef ht]
    simp
  · intro r hr
    rw [List.flatMap_map] at hr
    obtain ⟨q, hq, hr⟩ := List.mem_flatMap.1 hr
    obtain ⟨more', hmore', hsubset⟩ := hdeclare q
    rw [hmore', List.mem_append] at hr
    exact List.mem_flatMap.2 ⟨q, hq, hr.elim id fun h => hsubset h⟩

theorem writesApart_of_fields {declare : Parameter → Field} (hdeclare : Declares declare)
    (hstart : start = (Imports.ofOwner owner).applyAll (reserved.map .reserve))
    (hfields : u.fields = some (params.map declare)) :
    u.WritesApart start owner reserved params := by
  have halike : ∀ p ∈ params, ∀ p' ∈ params, ∀ t t', p.type = .parsed (.leaf t) →
      p'.type = .parsed (.leaf t') → Unqualifies t t' →
      (p.typeRef.text (u.imports start).display = p'.typeRef.text (u.imports start).display ↔
        Imports.ComesFirst owner (u.events reserved) (Reference.ofText t).className) := by
    intro p hp p' hp' t t' ht ht' hother
    obtain ⟨before, later, hparams⟩ := List.append_of_mem hp
    obtain ⟨earlier, rest, huses, -⟩ := uses_declared hdeclare hfields hparams ht
    rw [text_typeRef _ ht, text_typeRef _ ht', hstart, imports_ofOwner]
    apply hother.display_eq_iff
    rw [huses]
    simp
  refine ⟨halike, ?_⟩
  intro before p' later hparams p hp t t' ht ht' hother hnew
  have hp' : p' ∈ params := by
    rw [hparams]
    simp
  obtain ⟨earlier, rest, huses, hsubset⟩ := uses_declared hdeclare hfields hparams ht'
  have hevents : u.events reserved =
      (reserved.map .reserve ++ (u.leading ++ earlier).map .ofReference) ++
        .use (Reference.ofText t').className :: rest.map .ofReference := by
    rw [events, huses]
    simp [NameEvent.ofReference]
  have hname : simple (Reference.ofText t).className = (Reference.ofText t').className := by
    rw [hother.2]
  rw [ne_eq, halike p hp p' hp' t t' ht ht' hother, hevents]
  apply Imports.not_comesFirst (hname ▸ ClassName.not_isDotted_simple _) hother.1 hname
  intro hmem
  rw [List.mem_append, List.mem_map, List.mem_map] at hmem
  cases hmem with
  | inl hreserved =>
    obtain ⟨_, -, h⟩ := hreserved
    cases h
  | inr hused =>
    obtain ⟨r, hr, h⟩ := hused
    rw [List.mem_append] at hr
    apply hnew r
    · exact List.mem_append.2 (hr.imp_right fun h => hsubset h)
    · exact NameEvent.use.inj h

end WritesApart

end Java.SourceUnit

namespace Builder

variable {s : SupportClasses} {b : Builder}

theorem declares_field (initialised : Bool) :
    Java.SourceUnit.Declares fun p => field p initialised := by
  intro p
  cases htype : p.type with
  | verbatim text =>
    refine ⟨[], ?_, List.nil_subset _⟩
    simp [Java.Field.uses, field, htype]
  | parsed type =>
    refine ⟨if p.wrapped?.isSome && initialised then [type.base] else [], ?_, ?_⟩
    · cases hw : p.wrapped? <;> cases initialised <;>
        simp [Java.Field.uses, field, htype, hw, Java.Expr.uses, Java.Expr.usesAll,
          Java.Callee.uses, Java.Receiver.uses]
    · intro r hr
      split_ifs at hr
      · rw [List.mem_singleton.1 hr, Parameter.typeRef, htype]
        obtain ⟨base, args⟩ := type
        simp [Java.TypeRef.uses, TypeExpr.bases_node, TypeExpr.base]
      · cases hr

theorem writesApart_unit :
    (b.unit s).WritesApart b.ownNames b.name b.nestedNames b.params := by
  by_cases hshape : b.shape = .factory
  · -- there is one parameter, and its type does not differ from itself
    obtain ⟨only, hparams⟩ := params_of_factory hshape
    have hsame : ∀ p ∈ b.params, ∀ p' ∈ b.params, ∀ t t', p.type = .parsed (.leaf t) →
        p'.type = .parsed (.leaf t') → ¬ Java.SourceUnit.Unqualifies t t' := by
      intro p hp p' hp' t t' ht ht' hother
      rw [hparams, List.mem_singleton] at hp hp'
      rw [hp, ← hp', ht'] at ht
      cases ht
      exact hother.ne rfl
    constructor
    · intro p hp p' hp' t t' ht ht' hother
      exact absurd hother (hsame p hp p' hp' t t' ht ht')
    · intro before p' later hsplit p hp t t' ht ht' hother
      have hp' : p' ∈ b.params := by
        rw [hsplit]
        simp
      exact absurd hother (hsame p hp p' hp' t t' ht ht')
  · apply Java.SourceUnit.writesApart_of_fields (declares_field true) ownNames_eq
    rw [unit, if_neg hshape]

end Builder

namespace Implementation

variable {s : SupportClasses} {i : Implementation}

theorem writesApart_unit : (i.unit s).WritesApart (.ofOwner i.name) i.name [] i.params := by
  have hdeclare : Java.SourceUnit.Declares fun p =>
      { isFinal := true, type := p.typeRef, name := p.name } := by
    intro p
    exact ⟨[], rfl, List.nil_subset _⟩
  exact Java.SourceUnit.writesApart_of_fields hdeclare rfl rfl

end Implementation

/--
A class and its simple name by itself are written alike, in a run of requests as in the files that
are generated, exactly if the class comes first; then the name by itself is read as the class. In
the other order they are not.
-/
theorem alike_iff_comesFirst (s : SupportClasses) :
    (∀ (owner : String) (rs : List NameRequest) (u q : String),
      let final := (Imports.ofOwner owner).after rs
      let events := rs.flatMap (·.events)
      Imports.isDotted q = true → simple q = u → .use q ∈ events →
      (final.nameOf q ≠ u ↔ ¬ Imports.ComesFirst owner events q) ∧
      (∀ before later, events = before ++ .use u :: later → .use q ∉ before →
        final.nameOf q ≠ u) ∧
      (Imports.ComesFirst owner events q →
        package q ≠ package owner → package q ≠ "java.lang" →
          final.nameOf u = u ∧ q ∈ final.imported ∧ ∀ own, final.resolve own u = q)) ∧
    (∀ (b : Builder) (text : String), b.source s = .ok text →
      text = (b.unit s).text b.ownNames ∧
      (b.unit s).WritesApart b.ownNames b.name b.nestedNames b.params) ∧
    ∀ (i : Implementation) (text : String), i.source s = .ok text →
      text = (i.unit s).text (.ofOwner i.name) ∧
      (i.unit s).WritesApart (.ofOwner i.name) i.name [] i.params := by
  refine ⟨?_, ?_, ?_⟩
  · intro owner rs u q final events hd hname hq
    have hu : Imports.isDotted u = false := hname ▸ ClassName.not_isDotted_simple q
    have hfinal : final = (Imports.ofOwner owner).applyAll events := Imports.after_eq rs
    have hcoherent : Imports.Coherent final := by
      rw [hfinal]
      exact (Imports.Coherent.ofOwner owner).applyAll events
    have hiff : final.nameOf q = u ↔ Imports.ComesFirst owner events q := by
      rw [hfinal, ← hname]
      exact Imports.nameOf_eq_simple_iff hd hq
    refine ⟨not_congr hiff, ?_, ?_⟩
    · intro before later hevents hnew hsame
      rw [hiff, hevents] at hsame
      exact Imports.not_comesFirst hu hd hname hnew hsame
    · intro hfirst hown hlang
      have hpackage : final.package = package owner := by
        rw [hfinal, Imports.package_applyAll]
        rfl
      have himported : q ∈ final.imported := by
        rw [Imports.mem_imported hcoherent, hpackage, hiff.2 hfirst, ← hname]
        exact ⟨(simple_ne_of_isDotted hd).symm, hown, hlang⟩
      refine ⟨Imports.nameOf_of_not_isDotted hcoherent hu, himported, ?_⟩
      rw [← hname]
      exact Imports.resolve_of_imported hcoherent himported
  · intro b text hsource
    exact ⟨(Builder.of_source_eq_ok hsource).2, Builder.writesApart_unit⟩
  · intro i text hsource
    exact ⟨(Implementation.of_source_eq_ok hsource).2, Implementation.writesApart_unit⟩

namespace Builder

def pair (first second : String) : Builder where
  target := "me.Pair"
  name := "me.builder.PairBuilder"
  params := [
    { name := "first", type := .parsed (.leaf first) },
    { name := "second", type := .parsed (.leaf second) }]
  construction := .direct

def pairTypes (b : Builder) : List String :=
  b.params.map (·.typeRef.text ((b.unit {}).imports b.ownNames).display)

theorem pair_unqualified_first :
    ((Imports.ofOwner "a.Owner").after [.register "T", .register "com.acme.T"]).nameOf
        "com.acme.T" ≠ "T" ∧
      (pair "T" "com.acme.T").pairTypes.Nodup := by
  obtain ⟨hrun, hbuilder, -⟩ := alike_iff_comesFirst {}
  obtain ⟨-, hsafe, -⟩ := hrun "a.Owner" [.register "T", .register "com.acme.T"] "T" "com.acme.T"
    (by decide +kernel) (by decide +kernel) (by decide +kernel)
  obtain ⟨-, hwrites⟩ := hbuilder (pair "T" "com.acme.T") _ rfl
  have hapart := hwrites.apart [] _ _ rfl _ (List.mem_cons_of_mem _ List.mem_cons_self)
    "com.acme.T" "T" rfl rfl ⟨by decide +kernel, by decide +kernel⟩ (by decide +kernel)
  refine ⟨hsafe [] [.use "com.acme.T"] (by decide +kernel) List.not_mem_nil, ?_⟩
  exact List.nodup_cons.2 ⟨mt List.mem_singleton.1 hapart.symm, List.nodup_singleton _⟩

theorem pair_qualified_first :
    (¬ ∀ (owner : String) (rs : List NameRequest) (u q : String),
      Imports.isDotted u = false → Imports.isDotted q = true → simple q = u →
      package q ≠ package owner → package q ≠ "java.lang" →
      .use u ∈ rs.flatMap (·.events) → .use q ∈ rs.flatMap (·.events) →
        ((Imports.ofOwner owner).after rs).nameOf q ≠ u) ∧
    (pair "com.acme.T" "T").pairTypes = ["T", "T"] := by
  constructor
  · intro h
    apply h "a.Owner" [.register "com.acme.T", .register "T"] "T" "com.acme.T"
    all_goals decide +kernel
  · decide +kernel

end Builder

end StagedBuilder
