import Mathlib.Data.List.Basic
import StagedBuilder.Java.Layout
import StagedBuilder.Proofs.TypeLaws

namespace StagedBuilder.Java

def AgreeOn (names names' : Names) (references : List String) : Prop :=
  ∀ r ∈ references, names r = names' r

variable {names names' : Names}

section Lists

variable {α : Type} {r : String} {rs rs' : List String}

theorem agreeOn_cons :
    AgreeOn names names' (r :: rs) ↔ names r = names' r ∧ AgreeOn names names' rs :=
  List.forall_mem_cons

theorem agreeOn_append :
    AgreeOn names names' (rs ++ rs') ↔ AgreeOn names names' rs ∧ AgreeOn names names' rs' :=
  List.forall_mem_append

theorem AgreeOn.of_flatMap {uses : α → List String} {as : List α}
    (h : AgreeOn names names' (as.flatMap uses)) : ∀ a ∈ as, AgreeOn names names' (uses a) :=
  fun a ha r hr => h r (List.mem_flatMap.2 ⟨a, ha, hr⟩)

theorem AgreeOn.map_eq (h : AgreeOn names names' rs) : rs.map names = rs.map names' :=
  List.map_congr_left h

theorem AgreeOn.of_getD {uses : α → List String} {given : Option α}
    (h : AgreeOn names names' ((given.map uses).getD [])) :
    ∀ a ∈ given, AgreeOn names names' (uses a) := by
  rintro a rfl
  exact h

end Lists

theorem TypeRef.text_congr (t : TypeRef) (h : AgreeOn names names' t.uses) :
    t.text names = t.text names' := by
  induction t with
  | reference text => exact h text List.mem_cons_self
  | expr type => exact type.renderWith_congr h
  | written text => rfl
  | collector builder elements next ih =>
    rw [uses, agreeOn_append, agreeOn_cons] at h
    obtain ⟨⟨hbuilder, helements⟩, hnext⟩ := h
    have htexts : elements.map (·.renderWith names) = elements.map (·.renderWith names') :=
      List.map_congr_left fun t ht => t.renderWith_congr (helements.of_flatMap t ht)
    rw [text, text, hbuilder, htexts, ih hnext]

theorem Callee.text_congr (c : Callee) (h : AgreeOn names names' c.uses) :
    c.text names = c.text names' := by
  cases c with
  | constructor type => rw [text, text, type.text_congr h]
  | inferred reference => rw [text, text, h reference List.mem_cons_self]
  | method receiver name =>
    cases receiver with
    | implicit => rfl
    | value => rfl
    | static reference => rw [text, text, h reference List.mem_cons_self]

mutual

theorem Expr.text_congr (e : Expr) (h : AgreeOn names names' e.uses) :
    e.text names = e.text names' := by
  cases e with
  | this => rfl
  | null => rfl
  | truth => rfl
  | name => rfl
  | quoted => rfl
  | field owner member => rw [text, text, owner.text_congr h]
  | call callee args =>
    obtain ⟨hargs, hcallee⟩ := agreeOn_append.1 h
    rw [text, text, callee.text_congr hcallee, Expr.texts_congr args hargs]
  | ifNull subject whenNull otherwise =>
    obtain ⟨h, hotherwise⟩ := agreeOn_append.1 h
    obtain ⟨hsubject, hnull⟩ := agreeOn_append.1 h
    rw [text, text, subject.text_congr hsubject, whenNull.text_congr hnull,
      otherwise.text_congr hotherwise]
  | supplier value => rw [text, text, value.text_congr h]
  | cast type value => rw [text, text, value.text_congr h]
  | binary operator left right =>
    obtain ⟨hleft, hright⟩ := agreeOn_append.1 h
    rw [text, text, left.text_congr hleft, right.text_congr hright]

theorem Expr.texts_congr (es : List Expr) (h : AgreeOn names names' (Expr.usesAll es)) :
    Expr.texts names es = Expr.texts names' es := by
  cases es with
  | nil => rfl
  | cons e es =>
    obtain ⟨he, hes⟩ := agreeOn_append.1 h
    rw [Expr.texts, Expr.texts, e.text_congr he, Expr.texts_congr es hes]

end

theorem Step.marks_congr (s : Step) (h : AgreeOn names names' s.uses) :
    s.marks names = s.marks names' := by
  cases s with
  | comment => rfl
  | nullChecks checker checked =>
    have hchecker := h checker List.mem_cons_self
    simp only [marks, nullCheckLine, hchecker]
  | assign owner field value =>
    obtain ⟨howner, hvalue⟩ := agreeOn_append.1 h
    rw [marks, marks, owner.text_congr howner, value.text_congr hvalue]
  | declare type name value =>
    obtain ⟨htype, hvalue⟩ := agreeOn_append.1 h
    rw [marks, marks, type.text_congr htype, value.text_congr hvalue]
  | eval value => rw [marks, marks, value.text_congr h]
  | ret value => rw [marks, marks, value.text_congr h]
  | retCall callee args =>
    obtain ⟨hargs, hcallee⟩ := agreeOn_append.1 h
    rw [marks, marks, callee.text_congr hcallee, Expr.texts_congr args hargs]
  | retAll conditions =>
    have htexts := Expr.texts_congr conditions h
    rcases conditions with _ | ⟨c, _ | ⟨d, cs⟩⟩
    · rfl
    · have hc : c.text names = c.text names' := (List.cons.inj htexts).1
      simp only [marks, hc]
    · simp only [marks, htexts]

theorem Stmt.marks_congr (s : Stmt) (h : AgreeOn names names' s.uses) :
    s.marks names = s.marks names' := by
  cases s with
  | step s => exact s.marks_congr h
  | when condition body =>
    obtain ⟨hcondition, hbody⟩ := agreeOn_append.1 h
    rw [marks, marks, condition.text_congr hcondition,
      List.flatMap_congr fun s hs => s.marks_congr (hbody.of_flatMap s hs)]
  | reflective target erased args =>
    simp only [uses, agreeOn_append, agreeOn_cons] at h
    obtain ⟨⟨hargs, hconstructor, hfailures⟩, hunchecked, htarget, herased⟩ := h
    have hliterals : (erased.map fun t => t.text names ++ ".class") =
        erased.map fun t => t.text names' ++ ".class" :=
      List.map_congr_left fun t ht => by rw [t.text_congr (herased.of_flatMap t ht)]
    simp only [marks, hconstructor, htarget, hliterals, Expr.texts_congr args hargs,
      hfailures.map_eq, hunchecked]

theorem Formal.text_congr (f : Formal) (h : AgreeOn names names' f.uses) :
    f.text names = f.text names' := by
  obtain ⟨htype, hmarker⟩ := agreeOn_append.1 h
  rw [text, text, f.type.text_congr htype]
  cases hf : f.marker with
  | none => rfl
  | some m => simp only [Option.map_some, hmarker m (hf ▸ List.mem_singleton_self m)]

theorem Method.marks_congr (m : Method) (h : AgreeOn names names' m.uses) :
    m.marks names = m.marks names' := by
  simp only [uses, agreeOn_append] at h
  obtain ⟨⟨⟨hmarkers, hresult⟩, hformals⟩, hbody⟩ := h
  have hhead : m.head names = m.head names' := by
    rw [head, head, Option.map_congr fun t ht => by rw [t.text_congr (hresult.of_getD t ht)]]
  have htexts : m.formals.map (·.text names) = m.formals.map (·.text names') :=
    List.map_congr_left fun f hf => f.text_congr (hformals.of_flatMap f hf)
  have hlines : (m.markers.map fun r => Mark.line ("@" ++ names r)) =
      m.markers.map fun r => .line ("@" ++ names' r) :=
    List.map_congr_left fun r hr => by rw [hmarkers r hr]
  rw [marks, marks, hhead, htexts, hlines,
    List.flatMap_congr fun s hs => s.marks_congr (hbody.of_flatMap s hs)]

theorem Field.text_congr (f : Field) (h : AgreeOn names names' f.uses) :
    f.text names = f.text names' := by
  obtain ⟨htype, hvalue⟩ := agreeOn_append.1 h
  rw [text, text, f.type.text_congr htype,
    Option.map_congr fun v hv => by rw [v.text_congr (hvalue.of_getD v hv)]]

theorem fieldMarks_congr {fields : List Field}
    (h : AgreeOn names names' (fields.flatMap (·.uses))) :
    fieldMarks names fields = fieldMarks names' fields := by
  rw [fieldMarks, fieldMarks,
    List.map_congr_left fun f hf => by rw [f.text_congr (h.of_flatMap f hf)]]

theorem NestedClass.marks_congr (c : NestedClass) (h : AgreeOn names names' c.uses) :
    c.marks names = c.marks names' := by
  obtain ⟨hfields, hmethods⟩ := agreeOn_append.1 h
  rw [marks, marks, fieldMarks_congr hfields,
    List.flatMap_congr fun m hm => m.marks_congr (hmethods.of_flatMap m hm)]

theorem Member.marks_congr (m : Member) (h : AgreeOn names names' m.uses) :
    m.marks names = m.marks names' := by
  cases m with
  | method m => exact m.marks_congr h
  | nested c => exact c.marks_congr h

theorem SourceUnit.marks_congr (u : SourceUnit) (h : AgreeOn names names' u.uses) :
    u.marks names = u.marks names' := by
  simp only [uses, List.cons_append, agreeOn_cons, agreeOn_append] at h
  obtain ⟨hmarker, ⟨⟨hinterface, -⟩, hfields⟩, hmembers⟩ := h
  have hheader : (u.interface.map fun r => " implements " ++ names r) =
      u.interface.map fun r => " implements " ++ names' r :=
    Option.map_congr fun r hr => by rw [hinterface r (Option.mem_toList.2 hr)]
  have hfieldMarks : u.fields.map (fieldMarks names) = u.fields.map (fieldMarks names') :=
    Option.map_congr fun fields hf => fieldMarks_congr (by rwa [hf] at hfields)
  rw [marks, marks, hmarker, hheader, hfieldMarks,
    List.flatMap_congr fun m hm => m.marks_congr (hmembers.of_flatMap m hm)]

end StagedBuilder.Java
