import StagedBuilder.Proofs.CommentText

/-!
The text of a file outside of its comments. It does not depend on what the comments say but for the
levels by which their lines indent what follows, and on each of these it depends.
-/

namespace StagedBuilder

namespace Java

def Doc.bare (d : Doc) : Doc := { d with text := "" }

def Doc.opened (d : Doc) : Nat := Sheet.openedBy (d.inner ++ [" */"])

theorem Doc.depth_laid (d : Doc) (depth : Nat) :
    (Sheet.laid depth d.marks).depth = depth + d.opened := by
  rw [marks_eq, Sheet.depth_laid_lines, opened]

def Visible (marks : List Mark) : Prop :=
  ∀ depth, ∃ c rest, c ≠ ' ' ∧
    (Sheet.laid depth marks).text.toList = .replicate (depth * Sheet.step) ' ' ++ c :: rest

namespace Passage

def bare : Passage → Passage
  | .code marks => .code marks
  | .doc d => .doc d.bare

def docs (ps : List Passage) : List Doc := ps.filterMap (·.doc?)

def outside (depth : Nat) (ps : List Passage) : String :=
  .join (((stretches depth ps).filter (·.doc.isNone)).map (·.text))

def Announces : List Passage → Prop
  | [] => True
  | .code _ :: ps => Announces ps
  | .doc _ :: ps => (∃ marks more, ps = .code marks :: more ∧ Visible marks) ∧ Announces ps

section Outside

variable {depth : Nat} {marks : List Mark} {d : Doc} {ps qs : List Passage}

theorem outside_code (depth : Nat) (marks : List Mark) (ps : List Passage) :
    outside depth (.code marks :: ps) =
      (Sheet.laid depth marks).text ++ outside (Sheet.laid depth marks).depth ps :=
  String.join_cons

theorem outside_doc (depth : Nat) (d : Doc) (ps : List Passage) :
    outside depth (.doc d :: ps) = outside (depth + d.opened) ps := by
  have hdepth : outside depth (.doc d :: ps) = outside (Sheet.laid depth d.marks).depth ps := rfl
  rw [hdepth, d.depth_laid]

theorem docs_stretches (depth : Nat) (ps : List Passage) :
    (stretches depth ps).filterMap (·.doc) = docs ps := by
  induction ps generalizing depth with
  | nil => rfl
  | cons p ps ih => rw [stretches, List.filterMap_cons, docs, List.filterMap_cons, ih, docs]

theorem docs_doc (d : Doc) (ps : List Passage) : docs (.doc d :: ps) = d :: docs ps := rfl

theorem docs_bare (ps : List Passage) : docs (ps.map bare) = (docs ps).map .bare := by
  induction ps with
  | nil => rfl
  | cons p ps ih =>
    cases p with
    | code => exact ih
    | doc d => exact congrArg (d.bare :: ·) ih

theorem Announces.append (hps : Announces ps) (hqs : Announces qs) : Announces (ps ++ qs) := by
  induction ps with
  | nil => exact hqs
  | cons p ps ih =>
    cases p with
    | code marks => exact ih hps
    | doc d =>
      obtain ⟨⟨marks, more, rfl, hmarks⟩, hrest⟩ := hps
      exact ⟨⟨marks, more ++ qs, rfl, hmarks⟩, ih hrest⟩

theorem announces_flatMap {α : Type} {l : List α} {f : α → List Passage}
    (h : ∀ x ∈ l, Announces (f x)) : Announces (l.flatMap f) := by
  induction l with
  | nil => trivial
  | cons x l ih =>
    obtain ⟨hx, hl⟩ := List.forall_mem_cons.1 h
    exact hx.append (ih hl)

theorem spaces_inj {n m : Nat} {c c' : Char} {s s' : List Char} (hc : c ≠ ' ') (hc' : c' ≠ ' ')
    (h : List.replicate n ' ' ++ c :: s = .replicate m ' ' ++ c' :: s') : n = m := by
  induction n generalizing m with
  | zero =>
    cases m with
    | zero => rfl
    | succ m => exact absurd (List.cons.inj h).1 hc
  | succ n ih =>
    cases m with
    | zero => exact absurd (List.cons.inj h).1.symm hc'
    | succ m => rw [ih (List.cons.inj h).2]

theorem depth_eq_of_outside (hmarks : Visible marks) {depth' : Nat}
    (h : outside depth (.code marks :: ps) = outside depth' (.code marks :: qs)) :
    depth = depth' := by
  obtain ⟨c, rest, hc, hfirst⟩ := hmarks depth
  obtain ⟨c', rest', hc', hfirst'⟩ := hmarks depth'
  have htext := congrArg String.toList h
  rw [outside_code, outside_code, String.toList_append, String.toList_append, hfirst, hfirst',
    List.append_assoc, List.append_assoc] at htext
  exact Nat.eq_of_mul_eq_mul_right (by decide) (spaces_inj hc hc' htext)

/--
Passages with other documentation make up the same text outside of it exactly if each comment
indents what follows it as the other one does.
-/
theorem outside_eq_iff (hbare : ps.map bare = qs.map bare) (hannounces : Announces ps) :
    outside depth ps = outside depth qs ↔
      (docs ps).map (·.opened) = (docs qs).map (·.opened) := by
  induction ps generalizing depth qs with
  | nil =>
    rw [List.map_nil, eq_comm, List.map_eq_nil_iff] at hbare
    rw [hbare]
    exact iff_of_true rfl rfl
  | cons p ps ih =>
    obtain ⟨q, qs, rfl, hfirst, hrest⟩ := List.map_eq_cons_iff.1 hbare.symm
    match p, q, hfirst with
    | .code marks, .code _, rfl =>
      rw [outside_code, outside_code, String.append_right_inj]
      exact ih hrest.symm hannounces
    | .doc d, .doc d', hfirst =>
      obtain ⟨⟨marks, more, rfl, hmarks⟩, hlater⟩ := hannounces
      rw [outside_doc, outside_doc, docs_doc, docs_doc, List.map_cons, List.map_cons,
        List.cons.injEq]
      constructor
      · intro h
        -- the code behind the comment shows how deep it stands, and from there both go on alike
        have hopened : d.opened = d'.opened := by
          obtain ⟨q, qs, rfl, hcode, -⟩ := List.map_eq_cons_iff.1 hrest
          match q, hcode with
          | .code _, rfl => exact Nat.add_left_cancel (depth_eq_of_outside hmarks h)
        rw [hopened] at h
        exact ⟨hopened, (ih hrest.symm hlater).1 h⟩
      · rintro ⟨hopened, hdocs⟩
        rw [hopened]
        exact (ih hrest.symm hlater).2 hdocs

end Outside

end Passage

section Visible

variable {text head tail : String} {args : List String} {marks : List Mark} {c : Char}
  {rest : List Char}

theorem exists_laid_cons (depth : Nat) (m : Mark) (marks : List Mark) :
    ∃ later, (Sheet.laid depth (m :: marks)).text.toList =
      (Sheet.laid depth [m]).text.toList ++ later := by
  refine ⟨(Sheet.laid (Sheet.laid depth [m]).depth marks).text.toList, ?_⟩
  rw [← List.singleton_append, Sheet.laid_append, Sheet.under, String.toList_append]

theorem exists_laid_line (depth : Nat) (text : String) :
    ∃ later, (Sheet.line { depth } text).text.toList = Sheet.spaced depth text ++ later := by
  refine ⟨['\n'], ?_⟩
  have hline := Sheet.text_laid_lines depth [text]
  rw [Sheet.indented, Sheet.indented, List.flatMap_singleton] at hline
  exact hline

theorem exists_laid_call (depth : Nat) (head : String) (args : List String) (tail : String) :
    ∃ later, (Sheet.call { depth } head args tail).text.toList =
      Sheet.spaced depth head ++ later := by
  unfold Sheet.call
  dsimp only
  split_ifs
  · obtain ⟨later, hlater⟩ := exists_laid_line depth (head ++ ", ".intercalate args ++ tail)
    refine ⟨(", ".intercalate args ++ tail).toList ++ later, ?_⟩
    rw [hlater, Sheet.spaced, Sheet.spaced]
    simp only [String.toList_append, List.append_assoc]
  · obtain ⟨later, hlater⟩ := exists_laid_line depth head
    let first := (Sheet.line { depth } head).indent.indent
    let rest := Sheet.argumentLines { depth := first.depth } tail args
    have hlines : first.argumentLines tail args = rest.under first.text := by
      conv_lhs => rw [Sheet.eq_under first, Sheet.argumentLines_under]
    refine ⟨later ++ rest.text.toList, ?_⟩
    calc
      (first.argumentLines tail args).text.toList = first.text.toList ++ rest.text.toList := by
        rw [hlines, Sheet.under, String.toList_append]
      _ = Sheet.spaced depth head ++ (later ++ rest.text.toList) := by
        rw [← List.append_assoc, ← hlater]
        rfl

theorem visible_of_spaced {m : Mark} (hfirst : text.toList = c :: rest) (hc : c ≠ ' ')
    (hm : ∀ depth, ∃ later,
      (Sheet.laid depth [m]).text.toList = Sheet.spaced depth text ++ later) :
    Visible (m :: marks) := by
  intro depth
  obtain ⟨later, hlater⟩ := exists_laid_cons depth m marks
  obtain ⟨more, hmore⟩ := hm depth
  refine ⟨c, rest ++ more ++ later, hc, ?_⟩
  rw [hlater, hmore, Sheet.spaced, hfirst]
  simp

theorem visible_line (hfirst : text.toList = c :: rest) (hc : c ≠ ' ') :
    Visible (.line text :: marks) :=
  visible_of_spaced hfirst hc fun depth => exists_laid_line depth text

theorem visible_call (hfirst : head.toList = c :: rest) (hc : c ≠ ' ') :
    Visible (.call head args tail :: marks) :=
  visible_of_spaced hfirst hc fun depth => exists_laid_call depth head args tail

theorem exists_head (names : Names) (m : Method) : ∃ rest, (m.head names).toList = 'p' :: rest := by
  rw [Method.head, String.toList_append, String.toList_append, String.toList_append,
    String.toList_append]
  split_ifs
  · exact ⟨_, rfl⟩
  · exact ⟨_, rfl⟩
  · exact ⟨_, rfl⟩
  · exact ⟨_, rfl⟩

theorem visible_code (names : Names) (m : Method) : Visible (m.code names) := by
  unfold Method.code
  cases m.markers with
  | cons marker markers => exact visible_line (c := '@') String.toList_append (by decide)
  | nil =>
    obtain ⟨rest, hrest⟩ := exists_head names m
    dsimp only
    split_ifs
    · exact visible_call hrest (by decide)
    · have hheader (s t : String) : (m.head names ++ s ++ t).toList =
          'p' :: (rest ++ s.toList ++ t.toList) := by
        rw [String.toList_append, String.toList_append, hrest]
        rfl
      exact visible_line (hheader _ _) (by decide)

end Visible

def Method.bare (m : Method) : Method := { m with doc := m.doc.map Doc.bare }

def NestedClass.bare (c : NestedClass) : NestedClass := { c with methods := c.methods.map .bare }

def Member.bare : Member → Member
  | .method m => .method m.bare
  | .nested c => .nested c.bare

def SourceUnit.bare (u : SourceUnit) : SourceUnit := { u with members := u.members.map .bare }

section Bare

variable {names : Names}

theorem Method.passages_bare (m : Method) :
    m.bare.passages names = (m.passages names).map .bare := by
  cases hdoc : m.doc <;> simp [passages, bare, hdoc, Passage.bare, code, head]

theorem NestedClass.passages_bare (c : NestedClass) :
    c.bare.passages names = (c.passages names).map .bare := by
  simp [passages, bare, Passage.bare, List.flatMap_map, List.map_flatMap, Method.passages_bare]

theorem Member.passages_bare (m : Member) :
    m.bare.passages names = (m.passages names).map .bare := by
  cases m with
  | method m => exact m.passages_bare
  | nested c => exact c.passages_bare

theorem SourceUnit.front_bare (u : SourceUnit) : u.bare.front names = u.front names := rfl

theorem SourceUnit.later_bare (u : SourceUnit) :
    u.bare.later names = (u.later names).map .bare := by
  simp [later, bare, Passage.bare, List.flatMap_map, List.map_flatMap, Member.passages_bare]

theorem Member.uses_bare (m : Member) : m.bare.uses = m.uses := by
  cases m with
  | method => rfl
  | nested c =>
    have hmethods : (c.methods.map Method.bare).flatMap (·.uses) =
        c.methods.flatMap (·.uses) := List.flatMap_map ..
    exact congrArg (c.fields.flatMap (·.uses) ++ ·) hmethods

theorem SourceUnit.uses_bare (u : SourceUnit) : u.bare.uses = u.uses := by
  have hmembers : (u.members.map Member.bare).flatMap (·.uses) =
      u.members.flatMap (·.uses) := by
    rw [List.flatMap_map]
    exact congrArg (List.flatMap · u.members) (funext Member.uses_bare)
  exact congrArg (_ ++ ·) hmembers

theorem Method.announces (m : Method) : Passage.Announces (m.passages names) := by
  cases hdoc : m.doc with
  | none => simp [passages, hdoc, Passage.Announces]
  | some d =>
    simp only [passages, hdoc]
    exact ⟨⟨m.code names, [], rfl, visible_code names m⟩, trivial⟩

theorem SourceUnit.announces (u : SourceUnit) : Passage.Announces (u.later names) := by
  refine (Passage.announces_flatMap fun member _ => ?_).append trivial
  cases member with
  | method m => exact m.announces
  | nested c =>
    exact (Passage.announces_flatMap fun m _ => m.announces).append trivial

end Bare

namespace SourceUnit

def outside (u : SourceUnit) (start : Imports) : String :=
  .join (((u.stretches start).filter (·.doc.isNone)).map (·.text))

def docs (u : SourceUnit) (start : Imports) : List Doc :=
  (u.stretches start).filterMap (·.doc)

theorem docs_eq (u : SourceUnit) (start : Imports) :
    u.docs start = Passage.docs (u.later (u.imports start).display) := Passage.docs_stretches _ _

section Same

variable {u v : SourceUnit} (h : u.bare = v.bare) (start : Imports)

include h

theorem imports_eq : v.imports start = u.imports start := by
  rw [imports, imports, ← uses_bare, ← h, uses_bare]

theorem map_later_bare (names : Names) :
    (u.later names).map Passage.bare = (v.later names).map Passage.bare := by
  rw [← later_bare, ← later_bare, h]

theorem length_docs : (u.docs start).length = (v.docs start).length := by
  have hbare := congrArg Passage.docs (map_later_bare h (u.imports start).display)
  rw [Passage.docs_bare, Passage.docs_bare] at hbare
  rw [docs_eq, docs_eq, imports_eq h]
  simpa using congrArg List.length hbare

/-- Outside of its comments a file shows of them where they open blocks. -/
theorem outside_eq_iff :
    u.outside start = v.outside start ↔
      (u.docs start).map (·.opened) = (v.docs start).map (·.opened) := by
  have hfront (names : Names) : v.front names = u.front names := by
    rw [← front_bare, ← h, front_bare]
  have houtside (u : SourceUnit) : u.outside start =
      (Sheet.laid 0 (u.front (u.imports start).display)).finish (u.imports start) ++
        Passage.outside (Sheet.laid 0 (u.front (u.imports start).display)).depth
          (u.later (u.imports start).display) := String.join_cons
  rw [docs_eq, docs_eq, imports_eq h, ← Passage.outside_eq_iff (map_later_bare h _) u.announces,
    houtside, houtside, imports_eq h, hfront, String.append_right_inj]

theorem outside_eq_of_closed (hu : ∀ d ∈ u.docs start, d.opened = 0)
    (hv : ∀ d ∈ v.docs start, d.opened = 0) : u.outside start = v.outside start := by
  have hzero {w : SourceUnit} (hw : ∀ d ∈ w.docs start, d.opened = 0) :
      (w.docs start).map (·.opened) = .replicate (w.docs start).length 0 :=
    List.eq_replicate_iff.2 ⟨List.length_map _, List.forall_mem_map.2 hw⟩
  rw [outside_eq_iff h, hzero hu, hzero hv, length_docs h]

end Same

end SourceUnit

end Java

end StagedBuilder
