import StagedBuilder.Proofs.Execution
import StagedBuilder.Proofs.StageLaws

namespace StagedBuilder.Builder

open Java

def initial (p : Parameter) : Value :=
  if p.wrapped?.isSome then .outcome (.static optionalClass "empty") [] else .null

def gives (m : Method) (p : Parameter) : Bool :=
  m.name = p.name && (!m.formals.isEmpty || m.result.any (·.isCollector))

def assigned (p : Parameter) (m : Method) (args : List Value) (old : Value) : Value :=
  match args with
  | v :: _ =>
    if m.formals.map (·.type) = [p.typeRef] then v else .outcome (.static optionalClass "of") [v]
  | [] =>
    match p.type.collection? with
    | some c => .outcome (.inferred c.implementation) (if old.isNull then [] else [old])
    | none => old

def after (m : Method) (args : List Value) (values : Parameter → Value) (p : Parameter) : Value :=
  if gives m p then assigned p m args (values p) else values p

/-- What the construction receives for the value. -/
def passed (s : SupportClasses) (p : Parameter) (v : Value) : Value :=
  if p.type.isViewed && !(p.isNullable && v.isNull) then
    .outcome (.static s.helpers "unmodifiable") [v]
  else v

def passesArray (b : Builder) : Bool :=
  match b.params with
  | [p] => !p.type.isViewed && p.typeRef.isReferenceArray
  | _ => false

def operation (b : Builder) : Operation :=
  match b.construction with
  | .direct => .new (.reference b.target)
  | .reflective =>
    if b.passesArray then .spread b.target (b.params.map erasure)
    else .newInstance b.target (b.params.map erasure)
  | .delegate implementation => .static implementation "create"

def built (s : SupportClasses) (b : Builder) (values : Parameter → Value) : Value :=
  .outcome b.operation (b.params.map fun p => passed s p (values p))

structure WellNamed (b : Builder) : Prop where
  distinct : (b.params.map (·.name)).Nodup
  root : ∀ p ∈ b.params, p.name ≠ root
  handle : ∀ p ∈ b.params, p.name ≠ Reflection.handle

theorem checkAfter_ok {seen : List String} {ps : List Parameter}
    (h : Parameter.checkAfter seen ps = .ok ()) :
    (ps.map (·.name)).Nodup ∧ (∀ p ∈ ps, p.name ∉ seen) ∧
      ∀ p ∈ ps, p.name ∉ Parameter.reservedNames := by
  induction ps generalizing seen with
  | nil => simp
  | cons p ps ih =>
    rw [Parameter.checkAfter] at h
    split_ifs at h with hreserved hseen
    obtain ⟨hdistinct, hlater, hnames⟩ := ih h
    rw [List.contains_iff_mem] at hreserved hseen
    refine ⟨?_, ?_, ?_⟩
    · rw [List.map_cons, List.nodup_cons, List.mem_map]
      refine ⟨?_, hdistinct⟩
      intro ⟨q, hq, hname⟩
      exact hlater q hq (hname ▸ List.mem_cons_self)
    · rw [List.forall_mem_cons]
      exact ⟨hseen, fun q hq hmem => hlater q hq (List.mem_cons_of_mem _ hmem)⟩
    · rw [List.forall_mem_cons]
      exact ⟨hreserved, hnames⟩

theorem wellNamed_of_source {s : SupportClasses} {b : Builder} {text : String}
    (h : b.source s = .ok text) : b.WellNamed := by
  obtain ⟨hdistinct, -, hnames⟩ := checkAfter_ok (of_source_eq_ok h).1
  refine ⟨hdistinct, ?_, ?_⟩
  · intro p hp hname
    exact hnames p hp (by rw [hname]; decide)
  · intro p hp hname
    exact hnames p hp (by rw [hname]; decide)

theorem WellNamed.eq {b : Builder} (h : b.WellNamed) {p q : Parameter} (hp : p ∈ b.params)
    (hq : q ∈ b.params) (hname : p.name = q.name) : p = q :=
  List.inj_on_of_nodup_map h.distinct hp hq hname

theorem WellNamed.find?_eq {b : Builder} (h : b.WellNamed) {p : Parameter} (hp : p ∈ b.params) :
    b.params.find? (·.name = p.name) = some p := by
  obtain ⟨q, hq⟩ : ∃ q, b.params.find? (·.name = p.name) = some q :=
    Option.isSome_iff_exists.1 (List.find?_isSome.2 ⟨p, hp, decide_eq_true rfl⟩)
  have hname : q.name = p.name := by simpa using List.find?_some hq
  rw [hq, h.eq (List.mem_of_find?_eq_some hq) hp hname]

section Construct

variable {s : SupportClasses} {b : Builder} {types : Types} {invoke : Invoke} {f : Frame}
  {h : Heap} {values : Parameter → Value}

end Construct

def IsStage (s : SupportClasses) (b : Builder) (o : Object) : Prop :=
  ∃ c ∈ b.stagesFrom s b.mandatory, o = ⟨c, [(root, .object 0)]⟩

def Holds (s : SupportClasses) (b : Builder) (c : NestedClass) (values : Parameter → Value)
    (h : Heap) : Prop :=
  ∃ stages, h = ⟨c, b.params.map fun p => (p.name, values p)⟩ :: stages ∧
    ∀ o ∈ stages, IsStage s b o

def ownerAt : Nat → Expr
  | 0 => .this
  | _ + 1 => .name root

namespace Holds

variable {s : SupportClasses} {b : Builder} {c : NestedClass} {values : Parameter → Value}
  {h : Heap} {invoke : Invoke} {f : Frame} {address : Nat} {p : Parameter}

theorem congr {values' : Parameter → Value} (hh : Holds s b c values h)
    (heq : ∀ p ∈ b.params, values p = values' p) : Holds s b c values' h := by
  obtain ⟨stages, rfl, hstages⟩ := hh
  refine ⟨stages, ?_, hstages⟩
  rw [List.map_congr_left fun p hp => by rw [heq p hp]]

theorem lookup_values {α : Type} {values : Parameter → α} {ps : List Parameter}
    (hdistinct : (ps.map (·.name)).Nodup) (hp : p ∈ ps) :
    (ps.map fun q => (q.name, values q)).lookup p.name = some (values p) := by
  induction ps with
  | nil => cases hp
  | cons q ps ih =>
    rw [List.map_cons, List.nodup_cons] at hdistinct
    rw [List.map_cons, List.lookup_cons]
    rw [List.mem_cons] at hp
    cases hp with
    | inl hp => rw [hp, beq_self_eq_true]
    | inr hp =>
      have hne : p.name ≠ q.name := by
        intro heq
        exact hdistinct.1 (heq ▸ List.mem_map_of_mem hp)
      rw [beq_false_of_ne hne]
      exact ih hdistinct.2 hp

theorem read (hh : Holds s b c values h) (hb : b.WellNamed) (hp : p ∈ b.params) :
    Exec.readField 0 p.name h = .ok (values p) h := by
  obtain ⟨stages, rfl, -⟩ := hh
  exact Exec.readField_ok List.getElem?_cons_zero (lookup_values hb.distinct hp)

theorem writeField_values {ps : List Parameter} (hp : p ∈ ps) (v : Value)
    (hobject : h[address]? = some ⟨c, ps.map fun q => (q.name, values q)⟩) :
    Exec.writeField address p.name v h = .ok () (h.set address
      ⟨c, ps.map fun q => (q.name, if q.name = p.name then v else values q)⟩) := by
  have hfield : p.name ∈ (ps.map fun q => (q.name, values q)).map Prod.fst := by
    rw [List.map_map]
    exact List.mem_map_of_mem hp
  have hwritten : ((ps.map fun q => (q.name, values q)).map fun e =>
      if e.1 = p.name then (p.name, v) else e) =
        ps.map fun q => (q.name, if q.name = p.name then v else values q) := by
    rw [List.map_map]
    apply List.map_congr_left
    intro q hq
    by_cases hname : q.name = p.name
    · simp [hname]
    · simp [hname]
  rw [Exec.writeField, hobject]
  change (if _ then _ else _) = _
  rw [if_pos hfield, hwritten]

theorem write (hh : Holds s b c values h) (hp : p ∈ b.params) (v : Value) :
    ∃ h', Exec.writeField 0 p.name v h = .ok () h' ∧ h'.length = h.length ∧
      Holds s b c (fun q => if q.name = p.name then v else values q) h' := by
  obtain ⟨stages, rfl, hstages⟩ := hh
  exact ⟨_, writeField_values hp v List.getElem?_cons_zero, rfl, stages, rfl, hstages⟩

theorem allocate (hh : Holds s b c values h) {o : Object} (ho : IsStage s b o) :
    Holds s b c values (h ++ [o]) := by
  obtain ⟨stages, rfl, hstages⟩ := hh
  refine ⟨stages ++ [o], rfl, ?_⟩
  rw [List.forall_mem_append]
  exact ⟨hstages, by simpa using ho⟩

end Holds

end StagedBuilder.Builder
