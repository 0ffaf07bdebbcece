import Mathlib.Data.List.Induction
import StagedBuilder.Plan.Claims
import StagedBuilder.Proofs.ClaimLaws

/-!
Plans that claim their classes one after the other. A claim that fails keeps what it recorded
before the clash, and the run goes on. So a class is recorded once at most, by the earliest plan in
which it stands before the first clash, and it stays with the type of that plan.
-/

namespace StagedBuilder.Claims

def classes (claims : Claims) : List String := claims.map Prod.fst

def record (claims : Claims) (type : String) (names : List String) : Claims :=
  (names.map (·, type)).reverse ++ claims

def Free (taken names : List String) : Prop := names.Nodup ∧ ∀ n ∈ names, n ∉ taken

/-- The class comes before the first clash: up to it, none is taken or repeated. -/
def Stands (taken names : List String) (n : String) : Prop :=
  ∃ before, before ++ [n] <+: names ∧ Free taken (before ++ [n])

/-- The first class that is taken or repeated. -/
def ClashesAt (taken names : List String) (n : String) : Prop :=
  ∃ before, before ++ [n] <+: names ∧ Free taken before ∧ (n ∈ taken ∨ n ∈ before)

/-- What a claim does: it records all of the classes, or those before the first clash. -/
inductive Claimed (type : String) (claims : Claims) :
    List String → Claims → Option GenerationError → Prop
  | all {names : List String} (free : Free claims.classes names) :
      Claimed type claims names (claims.record type names) none
  | upTo {standing rest : List String} {n first : String} (free : Free claims.classes standing)
      (clash : n ∈ claims.classes ∨ n ∈ standing)
      (owner : (claims.record type standing).lookup n = some first) :
      Claimed type claims (standing ++ n :: rest) (claims.record type standing)
        (some (.duplicateClass n first type))

section Lists

variable {taken names before standing rest : List String} {n m : String}

theorem free_nil : Free taken [] := ⟨List.nodup_nil, List.forall_mem_nil _⟩

theorem free_append_iff :
    Free taken (before ++ rest) ↔ Free taken before ∧ Free (before.reverse ++ taken) rest :=
  nodup_append_iff

theorem free_singleton_iff : Free taken [n] ↔ n ∉ taken := by
  rw [Free, and_iff_right (List.nodup_singleton n), List.forall_mem_singleton]

theorem free_cons_iff : Free taken (n :: names) ↔ n ∉ taken ∧ Free (n :: taken) names := by
  rw [← List.singleton_append, free_append_iff, free_singleton_iff]
  rfl

theorem free_concat_iff :
    Free taken (before ++ [n]) ↔ Free taken before ∧ ¬(n ∈ taken ∨ n ∈ before) := by
  rw [free_append_iff, free_singleton_iff, List.mem_append, List.mem_reverse, or_comm]

theorem Free.front (h : Free taken names) (hfront : before <+: names) : Free taken before :=
  ⟨h.1.sublist hfront.sublist, fun n hn => h.2 n (hfront.subset hn)⟩

theorem not_free_iff : ¬ Free taken names ↔ (∃ n ∈ names, n ∈ taken) ∨ ¬ names.Nodup := by
  rw [Free, not_and_or, or_comm]
  simp only [not_forall, not_not, exists_prop]

theorem Stands.not_mem (h : Stands taken names n) : n ∉ taken := by
  obtain ⟨before, -, hfree⟩ := h
  exact hfree.2 n (List.mem_append_right _ (List.mem_singleton_self n))

theorem stands_of_free (hfree : Free taken names) : Stands taken names n ↔ n ∈ names := by
  constructor
  · rintro ⟨before, hfront, -⟩
    exact hfront.subset (List.mem_append_right _ (List.mem_singleton_self n))
  · intro hn
    obtain ⟨before, rest, rfl⟩ := List.append_of_mem hn
    have hfront : before ++ [n] <+: before ++ n :: rest := ⟨rest, by simp⟩
    exact ⟨before, hfront, hfree.front hfront⟩

theorem prefix_of_clash (hfree : Free taken before) (hclash : ¬ Free taken (standing ++ [n]))
    (hbefore : before <+: names) (hstanding : standing ++ [n] <+: names) :
    before <+: standing := by
  rcases List.prefix_or_prefix_of_prefix hbefore hstanding with h | h
  · rcases List.prefix_concat_iff.1 h with rfl | h
    · exact absurd hfree hclash
    · exact h
  · exact absurd (hfree.front h) hclash

theorem stands_of_clash (hfree : Free taken standing) (hclash : n ∈ taken ∨ n ∈ standing) :
    Stands taken (standing ++ n :: rest) m ↔ m ∈ standing := by
  have hstanding : standing ++ [n] <+: standing ++ n :: rest := ⟨rest, by simp⟩
  rw [← stands_of_free hfree]
  constructor
  · rintro ⟨before, hfront, hbefore⟩
    have hnot : ¬ Free taken (standing ++ [n]) := fun h => (free_concat_iff.1 h).2 hclash
    exact ⟨before, prefix_of_clash hbefore hnot hfront hstanding, hbefore⟩
  · rintro ⟨before, hfront, hbefore⟩
    exact ⟨before, hfront.trans (List.prefix_append _ _), hbefore⟩

theorem ClashesAt.unique (h : ClashesAt taken names n) (h' : ClashesAt taken names m) : n = m := by
  obtain ⟨before, hfront, hfree, hclash⟩ := h
  obtain ⟨before', hfront', hfree', hclash'⟩ := h'
  have hnot : ¬ Free taken (before ++ [n]) := fun h => (free_concat_iff.1 h).2 hclash
  have hnot' : ¬ Free taken (before' ++ [m]) := fun h => (free_concat_iff.1 h).2 hclash'
  have hle : before <+: before' :=
    prefix_of_clash hfree hnot' ((List.prefix_append _ _).trans hfront) hfront'
  have hge : before' <+: before :=
    prefix_of_clash hfree' hnot ((List.prefix_append _ _).trans hfront') hfront
  obtain rfl : before = before' := hle.eq_of_length (Nat.le_antisymm hle.length_le hge.length_le)
  have heq : before ++ [n] = before ++ [m] :=
    (List.prefix_of_prefix_length_le hfront hfront' (by simp)).eq_of_length (by simp)
  exact List.singleton_inj.1 (List.append_cancel_left heq)

end Lists

section Claim

variable {type x t : String} {claims after : Claims} {names : List String}
  {e : Option GenerationError}

theorem record_cons (claims : Claims) (type name : String) (names : List String) :
    claims.record type (name :: names) = record ((name, type) :: claims) type names := by
  simp [record]

theorem classes_record (claims : Claims) (type : String) (names : List String) :
    (claims.record type names).classes = names.reverse ++ claims.classes := by
  simp [record, classes, Function.comp_def]

theorem lookup_record (claims : Claims) (type : String) (names : List String) (x : String) :
    (claims.record type names).lookup x =
      if x ∈ names then some type else claims.lookup x := by
  induction names generalizing claims with
  | nil => rfl
  | cons name names ih =>
    rw [record_cons, ih, List.lookup_cons]
    by_cases hx : x = name
    · simp [hx]
    · simp [hx, beq_false_of_ne hx]

theorem Claimed.cons {name : String} (hname : name ∉ claims.classes)
    (h : Claimed type ((name, type) :: claims) names after e) :
    Claimed type claims (name :: names) after e := by
  cases h with
  | all free =>
    rw [← record_cons]
    exact .all (free_cons_iff.2 ⟨hname, free⟩)
  | @upTo standing rest n first free clash owner =>
    rw [← record_cons] at owner ⊢
    refine @Claimed.upTo _ _ (name :: standing) _ _ _ (free_cons_iff.2 ⟨hname, free⟩) ?_ owner
    rw [classes, List.map_cons, List.mem_cons, or_assoc, or_left_comm, ← List.mem_cons] at clash
    exact clash

theorem claimed_claim (type : String) (claims : Claims) (names : List String) :
    Claimed type claims names (claim type claims names).1 (claim type claims names).2 := by
  induction names generalizing claims with
  | nil => exact .all free_nil
  | cons name names ih =>
    rw [claim]
    cases hname : claims.lookup name with
    | none => exact (ih _).cons (lookup_eq_none_iff.1 hname)
    | some first =>
      have htaken : name ∈ claims.classes := by
        by_contra hfree
        rw [lookup_eq_none_iff.2 hfree] at hname
        cases hname
      exact @Claimed.upTo _ _ [] _ _ _ free_nil (.inl htaken) hname

theorem Claimed.exists_record (h : Claimed type claims names after e) :
    ∃ standing, after = claims.record type standing ∧ Free claims.classes standing ∧
      ∀ n, Stands claims.classes names n ↔ n ∈ standing := by
  cases h with
  | all free => exact ⟨names, rfl, free, fun n => stands_of_free free⟩
  | @upTo standing rest n first free clash owner =>
    exact ⟨standing, rfl, free, fun m => stands_of_clash free clash⟩

theorem Claimed.fails_iff (h : Claimed type claims names after e) :
    e ≠ none ↔ ¬ Free claims.classes names := by
  cases h with
  | all free => simp [free]
  | @upTo standing rest n first free clash owner =>
    refine iff_of_true (by simp) fun hfree => ?_
    have hfront : standing ++ [n] <+: standing ++ n :: rest := ⟨rest, by simp⟩
    exact (free_concat_iff.1 (hfree.front hfront)).2 clash

theorem Claimed.eq_some_iff (h : Claimed type claims names after e) {error : GenerationError} :
    e = some error ↔ ∃ n first, ClashesAt claims.classes names n ∧
      after.lookup n = some first ∧ error = .duplicateClass n first type := by
  cases h with
  | all free =>
    refine iff_of_false nofun ?_
    rintro ⟨n, first, ⟨before, hfront, -, hclash⟩, -⟩
    exact (free_concat_iff.1 (free.front hfront)).2 hclash
  | @upTo standing rest n first free clash owner =>
    have hclash : ClashesAt claims.classes (standing ++ n :: rest) n :=
      ⟨standing, ⟨rest, by simp⟩, free, clash⟩
    constructor
    · intro heq
      exact ⟨n, first, hclash, owner, (Option.some.inj heq).symm⟩
    · rintro ⟨m, second, hm, hsecond, rfl⟩
      obtain rfl := hclash.unique hm
      rw [owner] at hsecond
      rw [Option.some.inj hsecond]

theorem Claimed.lookup_iff (h : Claimed type claims names after e) :
    after.lookup x = some t ↔
      claims.lookup x = some t ∨ Stands claims.classes names x ∧ type = t := by
  obtain ⟨standing, rfl, hfree, hstands⟩ := h.exists_record
  rw [lookup_record, hstands]
  split_ifs with hx
  · have hnew : claims.lookup x = none := lookup_eq_none_iff.2 (hfree.2 x hx)
    simp [hx, hnew]
  · simp [hx]

theorem Claimed.mem_iff (h : Claimed type claims names after e) :
    x ∈ after.classes ↔ x ∈ claims.classes ∨ Stands claims.classes names x := by
  obtain ⟨standing, rfl, hfree, hstands⟩ := h.exists_record
  rw [classes_record, List.mem_append, List.mem_reverse, hstands, or_comm]

theorem Claimed.nodup (h : Claimed type claims names after e) (hclaims : claims.classes.Nodup) :
    after.classes.Nodup := by
  obtain ⟨standing, rfl, hfree, -⟩ := h.exists_record
  rw [classes_record, List.nodup_append']
  refine ⟨List.nodup_reverse.2 hfree.1, hclaims, fun x hx hmem => ?_⟩
  exact hfree.2 x (List.mem_reverse.1 hx) hmem

theorem Claimed.suffix (h : Claimed type claims names after e) : claims <:+ after := by
  obtain ⟨standing, rfl, -⟩ := h.exists_record
  exact List.suffix_append _ _

end Claim

def onRecord (plans : List Plan) : Claims :=
  plans.foldl (fun claims p => (claim p.type claims p.classNames).1) []

def Records (earlier : List Plan) (p : Plan) (n : String) : Prop :=
  Stands (onRecord earlier).classes p.classNames n

/-- The earliest of the plans that records the class. -/
def Recorder (plans : List Plan) (n : String) (p : Plan) : Prop :=
  ∃ earlier later, plans = earlier ++ p :: later ∧ Records earlier p n ∧
    ∀ before q after, earlier = before ++ q :: after → ¬ Records before q n

section Runs

variable {plans : List Plan} {p q : Plan} {n type : String}

theorem onRecord_concat (plans : List Plan) (p : Plan) :
    onRecord (plans ++ [p]) = (claim p.type (onRecord plans) p.classNames).1 :=
  List.foldl_append

theorem claimed_onRecord (plans : List Plan) (p : Plan) :
    Claimed p.type (onRecord plans) p.classNames (onRecord (plans ++ [p]))
      (claim p.type (onRecord plans) p.classNames).2 :=
  onRecord_concat plans p ▸ claimed_claim _ _ _

theorem exists_place_concat {P : List Plan → Plan → Prop} :
    (∃ earlier q later, plans ++ [p] = earlier ++ q :: later ∧ P earlier q) ↔
      (∃ earlier q later, plans = earlier ++ q :: later ∧ P earlier q) ∨ P plans p := by
  constructor
  · rintro ⟨earlier, q, later, heq, h⟩
    rcases List.eq_nil_or_concat later with rfl | ⟨later, r, rfl⟩
    · obtain ⟨rfl, hlast⟩ := List.append_inj' heq rfl
      exact .inr (List.singleton_inj.1 hlast ▸ h)
    · rw [List.concat_eq_append, ← List.cons_append, ← List.append_assoc] at heq
      exact .inl ⟨earlier, q, later, (List.append_inj' heq rfl).1, h⟩
  · rintro (⟨earlier, q, later, rfl, h⟩ | h)
    · exact ⟨earlier, q, later ++ [p], by simp, h⟩
    · exact ⟨plans, p, [], rfl, h⟩

theorem mem_onRecord_iff :
    n ∈ (onRecord plans).classes ↔
      ∃ earlier p later, plans = earlier ++ p :: later ∧ Records earlier p n := by
  induction plans using List.reverseRecOn with
  | nil => simp [onRecord, classes]
  | append_singleton plans p ih =>
    rw [(claimed_onRecord plans p).mem_iff, ih, exists_place_concat]
    rfl

theorem recorder_concat_iff :
    Recorder (plans ++ [p]) n q ↔ Recorder plans n q ∨ q = p ∧ Records plans p n := by
  let First (earlier : List Plan) (r : Plan) : Prop :=
    r = q ∧ Records earlier r n ∧
      ∀ before r' after, earlier = before ++ r' :: after → ¬ Records before r' n
  have hplace (run : List Plan) : Recorder run n q ↔
      ∃ earlier r later, run = earlier ++ r :: later ∧ First earlier r := by
    constructor
    · rintro ⟨earlier, later, heq, h⟩
      exact ⟨earlier, q, later, heq, rfl, h⟩
    · rintro ⟨earlier, _, later, heq, rfl, h⟩
      exact ⟨earlier, later, heq, h⟩
  have hlast : First plans p ↔ q = p ∧ Records plans p n := by
    constructor
    · exact fun h => ⟨h.1.symm, h.2.1⟩
    · rintro ⟨rfl, h⟩
      refine ⟨rfl, h, fun before r after heq hr => ?_⟩
      exact h.not_mem (mem_onRecord_iff.2 ⟨before, r, after, heq, hr⟩)
  rw [hplace, hplace, exists_place_concat, hlast]

theorem lookup_onRecord_iff :
    (onRecord plans).lookup n = some type ↔ ∃ p, Recorder plans n p ∧ p.type = type := by
  induction plans using List.reverseRecOn with
  | nil => simp [onRecord, Recorder]
  | append_singleton plans p ih =>
    rw [(claimed_onRecord plans p).lookup_iff, ih]
    simp only [recorder_concat_iff, or_and_right, exists_or, and_assoc, exists_eq_left]
    rfl

theorem nodup_onRecord (plans : List Plan) : (onRecord plans).classes.Nodup := by
  induction plans using List.reverseRecOn with
  | nil => exact List.nodup_nil
  | append_singleton plans p ih => exact (claimed_onRecord plans p).nodup ih

theorem onRecord_suffix (plans later : List Plan) :
    onRecord plans <:+ onRecord (plans ++ later) := by
  induction later using List.reverseRecOn with
  | nil => simp
  | append_singleton later p ih =>
    rw [← List.append_assoc]
    exact ih.trans (claimed_onRecord _ p).suffix

theorem lookup_later (later : List Plan) (h : (onRecord plans).lookup n = some type) :
    (onRecord (plans ++ later)).lookup n = some type := by
  induction later using List.reverseRecOn with
  | nil => rwa [List.append_nil]
  | append_singleton later p ih =>
    rw [← List.append_assoc]
    exact (claimed_onRecord _ p).lookup_iff.2 (.inl ih)

/--
After any plans, a plan can claim its classes unless one of them is on record or is repeated; the
first that is names the clash, with the type of the earliest plan that recorded it. What is on
record stays there with its type, and it is just what stands before the first clash in its plan.
-/
theorem claims_over_runs (plans : List Plan) (p : Plan) :
    ((claim p.type (onRecord plans) p.classNames).2 ≠ none ↔
      (∃ n ∈ p.classNames, n ∈ (onRecord plans).classes) ∨ ¬ p.classNames.Nodup) ∧
    (∀ e, (claim p.type (onRecord plans) p.classNames).2 = some e ↔
      ∃ n first, ClashesAt (onRecord plans).classes p.classNames n ∧
        Recorder (plans ++ [p]) n first ∧ e = .duplicateClass n first.type p.type) ∧
    (∀ later, onRecord plans <:+ onRecord (plans ++ later) ∧
      ∀ n type, (onRecord plans).lookup n = some type →
        (onRecord (plans ++ later)).lookup n = some type) ∧
    (onRecord plans).classes.Nodup ∧
    (∀ n, n ∈ (onRecord plans).classes ↔
      ∃ earlier q later, plans = earlier ++ q :: later ∧
        Stands (onRecord earlier).classes q.classNames n) ∧
    ∀ n type, (onRecord plans).lookup n = some type ↔ ∃ q, Recorder plans n q ∧ q.type = type := by
  have hclaim := claimed_onRecord plans p
  refine ⟨hclaim.fails_iff.trans not_free_iff, fun e => ?_,
    fun later => ⟨onRecord_suffix plans later, fun n type => lookup_later later⟩,
    nodup_onRecord plans, fun n => mem_onRecord_iff, fun n type => lookup_onRecord_iff⟩
  rw [hclaim.eq_some_iff]
  simp only [lookup_onRecord_iff]
  constructor
  · rintro ⟨n, _, hclash, ⟨first, hfirst, rfl⟩, he⟩
    exact ⟨n, first, hclash, hfirst, he⟩
  · rintro ⟨n, first, hclash, hfirst, he⟩
    exact ⟨n, _, hclash, ⟨first, hfirst, rfl⟩, he⟩

end Runs

end StagedBuilder.Claims
