import StagedBuilder.Manifest.Load
import StagedBuilder.Proofs.OutlineLaws

/-!
The order of keys in a manifest. The entries of its records can be written in any order, at any
depth; only the types are in the order in which they are written.
-/

namespace StagedBuilder

open Toml (Value)

variable {α : Type}

section Records

open Decoder
open RecordField (commutes_of)

def parameterOutline : Outline := .record parameterSchema.keys fun _ => .plain

def constructorOutline : Outline := .record constructorSchema.keys fun key =>
  if key = "params" then .list parameterOutline else .plain

def typeOutline : Outline := .record typeSchema.keys fun key =>
  if key = "params" then .list parameterOutline
  else if key = "constructors" then .list constructorOutline
  else .plain

def manifestOutline : Outline := .record manifestSchema.keys fun key =>
  if key = "defaults" then .record defaultsSchema.keys fun _ => .plain
  else if key = "runtime" then .record supportSchema.keys fun _ => .plain
  else if key = "types" then .entries typeOutline
  else .plain

/-- The schemas by which a manifest and its parts are read. -/
inductive IsPart : {α : Type} → Schema α → Prop
  | parameter : IsPart parameterSchema
  | constructor : IsPart constructorSchema
  | type : IsPart typeSchema
  | defaults : IsPart defaultsSchema
  | support : IsPart supportSchema
  | manifest : IsPart manifestSchema

theorem IsPart.lawful {s : Schema α} (h : IsPart s) : s.Lawful where
  keys := by cases h <;> decide
  commutes := by
    cases h
    all_goals
      simp only [parameterSchema, constructorSchema, typeSchema, defaultsSchema, supportSchema,
        manifestSchema, List.pairwise_cons, List.forall_mem_cons, List.not_mem_nil,
        IsEmpty.forall_iff, implies_true, List.Pairwise.nil, and_true]
      and_intros <;> exact commutes_of fun _ _ _ => rfl

theorem fits_parameter : Fits parameterSchema.decode parameterOutline :=
  Schema.fits_plain IsPart.parameter.lawful

theorem fits_constructor : Fits constructorSchema.decode constructorOutline := by
  refine Schema.fits IsPart.constructor.lawful ?_
  simp only [constructorSchema, List.forall_mem_cons]
  exact ⟨.plain _, .plain _, fits_parameter.list.field _ _ _, List.forall_mem_nil _⟩

theorem fits_type : Fits typeSchema.decode typeOutline := by
  refine Schema.fits IsPart.type.lawful ?_
  simp only [typeSchema, List.forall_mem_cons]
  and_intros
  iterate 8 exact .plain _
  · exact fits_parameter.list.field _ _ _
  · exact fits_constructor.list.field _ _ _
  · exact List.forall_mem_nil _

theorem fits_manifest : Fits manifestSchema.decode manifestOutline := by
  refine Schema.fits IsPart.manifest.lawful ?_
  simp only [manifestSchema, List.forall_mem_cons]
  and_intros
  · exact (Schema.fits_plain IsPart.defaults.lawful).field _ _ _
  · exact (Schema.fits_plain IsPart.support.lawful).field _ _ _
  · exact fits_type.entries.field _ _ _
  · exact List.forall_mem_nil _

end Records

section Contents

open Decoder
open RecordField (gatherAll gatherAll_cons_iff gatherAll_optional_cons_iff gatherAll_nil_eq_ok_iff)

variable {given : List (String × Value)}

structure ParameterDecl.Follows (given : List (String × Value)) (p : ParameterDecl) : Prop where
  name : Reads given "name" string "" p.name
  type : Reads given "type" string "" p.type
  nullable : Reads given "nullable" boolean false p.nullable
  doc : Reads given "doc" string.optional none p.doc
  verbatim : Reads given "prerendered" boolean false p.verbatim
  accessor : Reads given "accessor" string.optional none p.accessor

theorem ParameterDecl.follows_iff {p : ParameterDecl} :
    gatherAll given parameterSchema.fields parameterSchema.initial = .ok p ↔ p.Follows given := by
  simp only [parameterSchema,
    gatherAll_cons_iff ParameterDecl.name (fun p x => { p with name := x }) fun _ => rfl,
    gatherAll_cons_iff ParameterDecl.type (fun p x => { p with type := x }) fun _ => rfl,
    gatherAll_cons_iff ParameterDecl.nullable (fun p x => { p with nullable := x }) fun _ => rfl,
    gatherAll_optional_cons_iff ParameterDecl.doc (fun p x => { p with doc := x }) fun _ => rfl,
    gatherAll_cons_iff ParameterDecl.verbatim (fun p x => { p with verbatim := x }) fun _ => rfl,
    gatherAll_optional_cons_iff ParameterDecl.accessor (fun p x => { p with accessor := x })
      fun _ => rfl,
    gatherAll_nil_eq_ok_iff]
  constructor
  · rintro ⟨_, hname, _, htype, _, hnullable, _, hdoc, _, hverbatim, _, haccessor, rfl⟩
    exact ⟨hname, htype, hnullable, hdoc, hverbatim, haccessor⟩
  · rintro ⟨hname, htype, hnullable, hdoc, hverbatim, haccessor⟩
    exact ⟨_, hname, _, htype, _, hnullable, _, hdoc, _, hverbatim, _, haccessor, rfl⟩

structure ConstructorDecl.Follows (given : List (String × Value)) (c : ConstructorDecl) : Prop where
  visibility : Reads given "visibility" Visibility.decode .publicAccess c.visibility
  designated : Reads given "designated" boolean false c.designated
  params : Reads given "params" (list parameterSchema.decode) [] c.params

theorem ConstructorDecl.follows_iff {c : ConstructorDecl} :
    gatherAll given constructorSchema.fields constructorSchema.initial = .ok c ↔
      c.Follows given := by
  simp only [constructorSchema,
    gatherAll_cons_iff ConstructorDecl.visibility (fun c x => { c with visibility := x })
      fun _ => rfl,
    gatherAll_cons_iff ConstructorDecl.designated (fun c x => { c with designated := x })
      fun _ => rfl,
    gatherAll_cons_iff ConstructorDecl.params (fun c x => { c with params := x }) fun _ => rfl,
    gatherAll_nil_eq_ok_iff]
  constructor
  · rintro ⟨_, hvisibility, _, hdesignated, _, hparams, rfl⟩
    exact ⟨hvisibility, hdesignated, hparams⟩
  · rintro ⟨hvisibility, hdesignated, hparams⟩
    exact ⟨_, hvisibility, _, hdesignated, _, hparams, rfl⟩

structure TypeDecl.Follows (given : List (String × Value)) (d : TypeDecl) : Prop where
  kind : Reads given "kind" TypeKind.decode .plainClass d.kind
  visibility : Reads given "visibility" Visibility.decode .publicAccess d.visibility
  package : Reads given "package" string.optional none d.package
  builder : Reads given "builder" string.optional none d.builder
  implementation : Reads given "implementation" string.optional none d.implementation
  alwaysBuild : Reads given "always_include_build_method" boolean.optional none d.alwaysBuild
  copy : Reads given "copy" boolean.optional none d.copy
  check : Reads given "check" string.optional none d.check
  params : Reads given "params" (list parameterSchema.decode) [] d.params
  constructors : Reads given "constructors" (list constructorSchema.decode) [] d.constructors

theorem TypeDecl.follows_iff {d : TypeDecl} :
    gatherAll given typeSchema.fields typeSchema.initial = .ok d ↔ d.Follows given := by
  simp only [typeSchema,
    gatherAll_cons_iff TypeDecl.kind (fun d x => { d with kind := x }) fun _ => rfl,
    gatherAll_cons_iff TypeDecl.visibility (fun d x => { d with visibility := x }) fun _ => rfl,
    gatherAll_optional_cons_iff TypeDecl.package (fun d x => { d with package := x }) fun _ => rfl,
    gatherAll_optional_cons_iff TypeDecl.builder (fun d x => { d with builder := x }) fun _ => rfl,
    gatherAll_optional_cons_iff TypeDecl.implementation (fun d x => { d with implementation := x })
      fun _ => rfl,
    gatherAll_optional_cons_iff TypeDecl.alwaysBuild (fun d x => { d with alwaysBuild := x })
      fun _ => rfl,
    gatherAll_optional_cons_iff TypeDecl.copy (fun d x => { d with copy := x }) fun _ => rfl,
    gatherAll_optional_cons_iff TypeDecl.check (fun d x => { d with check := x }) fun _ => rfl,
    gatherAll_cons_iff TypeDecl.params (fun d x => { d with params := x }) fun _ => rfl,
    gatherAll_cons_iff TypeDecl.constructors (fun d x => { d with constructors := x }) fun _ => rfl,
    gatherAll_nil_eq_ok_iff]
  constructor
  · rintro ⟨_, hkind, _, hvisibility, _, hpackage, _, hbuilder, _, himplementation, _, halwaysBuild,
      _, hcopy, _, hcheck, _, hparams, _, hconstructors, rfl⟩
    exact ⟨hkind, hvisibility, hpackage, hbuilder, himplementation, halwaysBuild, hcopy, hcheck,
      hparams, hconstructors⟩
  · rintro ⟨hkind, hvisibility, hpackage, hbuilder, himplementation, halwaysBuild, hcopy, hcheck,
      hparams, hconstructors⟩
    exact ⟨_, hkind, _, hvisibility, _, hpackage, _, hbuilder, _, himplementation, _, halwaysBuild,
      _, hcopy, _, hcheck, _, hparams, _, hconstructors, rfl⟩

structure Defaults.Follows (given : List (String × Value)) (d : Defaults) : Prop where
  builder : Reads given "builder" string NameTemplate.builder.text d.builder
  implementation :
    Reads given "implementation" string NameTemplate.implementation.text d.implementation
  alwaysBuild : Reads given "always_include_build_method" boolean false d.alwaysBuild
  copy : Reads given "copy" boolean true d.copy

theorem Defaults.follows_iff {d : Defaults} :
    gatherAll given defaultsSchema.fields defaultsSchema.initial = .ok d ↔ d.Follows given := by
  simp only [defaultsSchema,
    gatherAll_cons_iff Defaults.builder (fun d x => { d with builder := x }) fun _ => rfl,
    gatherAll_cons_iff Defaults.implementation (fun d x => { d with implementation := x })
      fun _ => rfl,
    gatherAll_cons_iff Defaults.alwaysBuild (fun d x => { d with alwaysBuild := x }) fun _ => rfl,
    gatherAll_cons_iff Defaults.copy (fun d x => { d with copy := x }) fun _ => rfl,
    gatherAll_nil_eq_ok_iff]
  constructor
  · rintro ⟨_, hbuilder, _, himplementation, _, halwaysBuild, _, hcopy, rfl⟩
    exact ⟨hbuilder, himplementation, halwaysBuild, hcopy⟩
  · rintro ⟨hbuilder, himplementation, halwaysBuild, hcopy⟩
    exact ⟨_, hbuilder, _, himplementation, _, halwaysBuild, _, hcopy, rfl⟩

structure SupportOverrides.Follows (given : List (String × Value)) (s : SupportOverrides) :
    Prop where
  preconditions : Reads given "preconditions" string.optional none s.preconditions
  helpers : Reads given "helpers" string.optional none s.helpers
  listBuilder : Reads given "list_builder" string.optional none s.listBuilder
  setBuilder : Reads given "set_builder" string.optional none s.setBuilder
  mapBuilder : Reads given "map_builder" string.optional none s.mapBuilder
  generated : Reads given "generated" string.optional none s.generated
  nonnull : Reads given "nonnull" string.optional none s.nonnull
  nullable : Reads given "nullable" string.optional none s.nullable
  generator : Reads given "generator" string.optional none s.generator

theorem SupportOverrides.follows_iff {s : SupportOverrides} :
    gatherAll given supportSchema.fields supportSchema.initial = .ok s ↔ s.Follows given := by
  simp only [supportSchema,
    gatherAll_optional_cons_iff SupportOverrides.preconditions
      (fun s x => { s with preconditions := x }) fun _ => rfl,
    gatherAll_optional_cons_iff SupportOverrides.helpers (fun s x => { s with helpers := x })
      fun _ => rfl,
    gatherAll_optional_cons_iff SupportOverrides.listBuilder
      (fun s x => { s with listBuilder := x }) fun _ => rfl,
    gatherAll_optional_cons_iff SupportOverrides.setBuilder (fun s x => { s with setBuilder := x })
      fun _ => rfl,
    gatherAll_optional_cons_iff SupportOverrides.mapBuilder (fun s x => { s with mapBuilder := x })
      fun _ => rfl,
    gatherAll_optional_cons_iff SupportOverrides.generated (fun s x => { s with generated := x })
      fun _ => rfl,
    gatherAll_optional_cons_iff SupportOverrides.nonnull (fun s x => { s with nonnull := x })
      fun _ => rfl,
    gatherAll_optional_cons_iff SupportOverrides.nullable (fun s x => { s with nullable := x })
      fun _ => rfl,
    gatherAll_optional_cons_iff SupportOverrides.generator (fun s x => { s with generator := x })
      fun _ => rfl,
    gatherAll_nil_eq_ok_iff]
  constructor
  · rintro ⟨_, hpreconditions, _, hhelpers, _, hlistBuilder, _, hsetBuilder, _, hmapBuilder, _,
      hgenerated, _, hnonnull, _, hnullable, _, hgenerator, rfl⟩
    exact ⟨hpreconditions, hhelpers, hlistBuilder, hsetBuilder, hmapBuilder, hgenerated, hnonnull,
      hnullable, hgenerator⟩
  · rintro ⟨hpreconditions, hhelpers, hlistBuilder, hsetBuilder, hmapBuilder, hgenerated, hnonnull,
      hnullable, hgenerator⟩
    exact ⟨_, hpreconditions, _, hhelpers, _, hlistBuilder, _, hsetBuilder, _, hmapBuilder, _,
      hgenerated, _, hnonnull, _, hnullable, _, hgenerator, rfl⟩

structure Manifest.Follows (given : List (String × Value)) (m : Manifest) : Prop where
  defaults : Reads given "defaults" defaultsSchema.decode {} m.defaults
  support : Reads given "runtime" supportSchema.decode {} m.support
  types : Reads given "types" (entries typeSchema.decode) [] m.types

theorem Manifest.follows_iff {m : Manifest} :
    gatherAll given manifestSchema.fields manifestSchema.initial = .ok m ↔ m.Follows given := by
  simp only [manifestSchema,
    gatherAll_cons_iff Manifest.defaults (fun m x => { m with defaults := x }) fun _ => rfl,
    gatherAll_cons_iff Manifest.support (fun m x => { m with support := x }) fun _ => rfl,
    gatherAll_cons_iff Manifest.types (fun m x => { m with types := x }) fun _ => rfl,
    gatherAll_nil_eq_ok_iff]
  constructor
  · rintro ⟨_, hdefaults, _, hsupport, _, htypes, rfl⟩
    exact ⟨hdefaults, hsupport, htypes⟩
  · rintro ⟨hdefaults, hsupport, htypes⟩
    exact ⟨_, hdefaults, _, hsupport, _, htypes, rfl⟩

end Contents

/-- The values that stand for a record are those that follow its description. -/
def Schema.Describes (s : Schema α) (follows : List (String × Value) → α → Prop) : Prop :=
  ∀ v a, v.Distinct → (s.decode v = .ok a ↔ ∃ given, s.Gives v given ∧ follows given a)

theorem Schema.Lawful.describes {s : Schema α} (hlaws : s.Lawful)
    {follows : List (String × Value) → α → Prop}
    (h : ∀ given a, RecordField.gatherAll given s.fields s.initial = .ok a ↔ follows given a) :
    s.Describes follows := by
  intro v a hv
  simp only [decode_eq_ok_iff hlaws hv.keys, h]

def SameResult {ε ε' : Type} (x : Except ε α) (y : Except ε' α) : Prop :=
  (∃ e e', x = .error e ∧ y = .error e') ∨ ∃ a, x = .ok a ∧ y = .ok a

theorem sameResult_of_iff {ε ε' : Type} {x : Except ε α} {y : Except ε' α}
    (h : ∀ a, x = .ok a ↔ y = .ok a) : SameResult x y := by
  cases x with
  | ok a => exact .inr ⟨a, rfl, (h a).1 rfl⟩
  | error e =>
    cases y with
    | ok a => cases (h a).2 rfl
    | error e' => exact .inl ⟨e, e', rfl, rfl⟩

theorem Manifest.ofTextBy_eq_ok_iff {read : Toml.Reading} {text : String} {m : Manifest} :
    ofTextBy read text = .ok m ↔
      ∃ es, read text = some es ∧ manifestSchema.decode (.table es) = .ok m := by
  unfold ofTextBy
  cases read text with
  | none => simp
  | some es => simp [mapError_eq_ok_iff]

theorem keys_of_entries {d : Decoder α} {es : List (String × Value)} {as : List (String × α)}
    (h : Decoder.entries d (.table es) = .ok as) : as.map Prod.fst = es.map Prod.fst := by
  rw [Decoder.entries, mapM_eq_ok_iff] at h
  induction h with
  | nil => rfl
  | cons ha _ ih =>
    obtain ⟨x, -, rfl⟩ := map_eq_ok_iff.1 ha
    rw [List.map_cons, List.map_cons, ih]

/--
Values without repeated keys that differ at most in the order of the entries of records are both
refused or stand for the same manifest, and so do the texts they are read from, whatever reads them
without repeating keys. An unknown key in any record is refused. A record has what its keys give,
and the defaults where they are not given; the types are in the order of their keys.
-/
theorem keys_in_any_order :
    (∀ v w, v.Distinct → manifestOutline.Reordered v w →
      SameResult (manifestSchema.decode v) (manifestSchema.decode w)) ∧
    (∀ v names given, v.Distinct → manifestOutline.Contains names given v →
      ∀ key ∈ given.map Prod.fst, key ∉ names → ∃ e, manifestSchema.decode v = .error e) ∧
    (manifestSchema.Describes Manifest.Follows ∧ defaultsSchema.Describes Defaults.Follows ∧
      supportSchema.Describes SupportOverrides.Follows ∧ typeSchema.Describes TypeDecl.Follows ∧
      constructorSchema.Describes ConstructorDecl.Follows ∧
      parameterSchema.Describes ParameterDecl.Follows) ∧
    (∀ given types m, (Value.table given).Distinct → given.lookup "types" = some (.table types) →
      manifestSchema.decode (.table given) = .ok m → m.types.map Prod.fst = types.map Prod.fst) ∧
    Toml.KeepsApart Toml.read ∧
    ∀ read : Toml.Reading, Toml.KeepsApart read →
      ∀ text text' es es', read text = some es → read text' = some es' →
        manifestOutline.Reordered (.table es) (.table es') →
          SameResult (Manifest.ofTextBy read text) (Manifest.ofTextBy read text') := by
  have hmanifest : manifestSchema.Describes Manifest.Follows :=
    IsPart.manifest.lawful.describes fun _ _ => Manifest.follows_iff
  refine ⟨fun v w hv hreordered => sameResult_of_iff (fits_manifest.reordered v w hv hreordered),
    ?_, ⟨hmanifest, ?_, ?_, ?_, ?_, ?_⟩, ?_, Toml.keepsApart_read, ?_⟩
  · intro v names given hv hcontains key hkey hunknown
    cases hdecode : manifestSchema.decode v with
    | error e => exact ⟨e, rfl⟩
    | ok m =>
      have hknown := fits_manifest.known v m hv hdecode names given hcontains
      exact absurd (hknown key hkey) hunknown
  · exact IsPart.defaults.lawful.describes fun _ _ => Defaults.follows_iff
  · exact IsPart.support.lawful.describes fun _ _ => SupportOverrides.follows_iff
  · exact IsPart.type.lawful.describes fun _ _ => TypeDecl.follows_iff
  · exact IsPart.constructor.lawful.describes fun _ _ => ConstructorDecl.follows_iff
  · exact IsPart.parameter.lawful.describes fun _ _ => ParameterDecl.follows_iff
  · intro given types m hgiven htypes hm
    obtain ⟨given', hgives, hfollows⟩ := (hmanifest _ m hgiven).1 hm
    obtain ⟨rfl, -⟩ := Schema.gives_table_iff.1 hgives
    have hread := hfollows.types
    rw [Reads, htypes] at hread
    exact keys_of_entries hread
  · intro read hread text text' es es' hes hes' hreordered
    refine sameResult_of_iff fun m => ?_
    simp only [Manifest.ofTextBy_eq_ok_iff, hes, hes', Option.some.injEq, exists_eq_left']
    exact fits_manifest.reordered _ _ (hread text es hes) hreordered m

section Pair

def sortedText : String :=
  "[defaults]\nbuilder = \"a.B\"\ncopy = false\n[types.\"me.Pair\"]\nkind = \"record\"\n" ++
    "params = [\x7b name = \"left\", type = \"int\" \x7d]\n"

def shuffledText : String :=
  "[types.\"me.Pair\"]\nparams = [\x7b type = \"int\", name = \"left\" \x7d]\n" ++
    "kind = \"record\"\n[defaults]\ncopy = false\nbuilder = \"a.B\"\n"

def sortedPair : List (String × Value) := [
  ("kind", .string "record"),
  ("params", .array [.table [("name", .string "left"), ("type", .string "int")]])]

def shuffledPair : List (String × Value) := [
  ("params", .array [.table [("type", .string "int"), ("name", .string "left")]]),
  ("kind", .string "record")]

def sortedEntries : List (String × Value) := [
  ("defaults", .table [("builder", .string "a.B"), ("copy", .boolean false)]),
  ("types", .table [("me.Pair", .table sortedPair)])]

def shuffledEntries : List (String × Value) := [
  ("types", .table [("me.Pair", .table shuffledPair)]),
  ("defaults", .table [("copy", .boolean false), ("builder", .string "a.B")])]

def pairManifest : Manifest where
  defaults := { builder := "a.B", copy := false }
  types := [("me.Pair", { kind := .record, params := [{ name := "left", type := "int" }] })]

theorem reordered_pair : typeOutline.Reordered (.table sortedPair) (.table shuffledPair) := by
  have hparameter : parameterOutline.Reordered
      (.table [("name", .string "left"), ("type", .string "int")])
      (.table [("type", .string "int"), ("name", .string "left")]) :=
    .table (.swap _ _ []) (.cons ⟨rfl, rfl⟩ (.cons ⟨rfl, rfl⟩ .nil))
  have hparams : (Outline.list parameterOutline).Reordered
      (.array [.table [("name", .string "left"), ("type", .string "int")]])
      (.array [.table [("type", .string "int"), ("name", .string "left")]]) :=
    .array (.cons hparameter .nil)
  refine .table (.swap _ _ []) (.cons ⟨rfl, ?_⟩ (.cons ⟨rfl, ?_⟩ .nil))
  · exact hparams
  · rfl

theorem reordered_entries :
    manifestOutline.Reordered (.table sortedEntries) (.table shuffledEntries) := by
  have htypes : (Outline.entries typeOutline).Reordered
      (.table [("me.Pair", .table sortedPair)]) (.table [("me.Pair", .table shuffledPair)]) :=
    .table (.cons ⟨rfl, reordered_pair⟩ .nil)
  have hdefaults : (Outline.record defaultsSchema.keys fun _ => .plain).Reordered
      (.table [("builder", .string "a.B"), ("copy", .boolean false)])
      (.table [("copy", .boolean false), ("builder", .string "a.B")]) :=
    .table (.swap _ _ []) (.cons ⟨rfl, rfl⟩ (.cons ⟨rfl, rfl⟩ .nil))
  refine .table (.swap _ _ []) (.cons ⟨rfl, ?_⟩ (.cons ⟨rfl, ?_⟩ .nil))
  · exact htypes
  · exact hdefaults

theorem pair_in_any_order :
    Toml.read sortedText = some sortedEntries ∧ Toml.read shuffledText = some shuffledEntries ∧
      manifestOutline.Reordered (.table sortedEntries) (.table shuffledEntries) ∧
      Manifest.ofText sortedText = .ok pairManifest ∧
      Manifest.ofText shuffledText = .ok pairManifest ∧
      ∃ e, manifestSchema.decode (.table [("defaults", .table [("colour", .string "red")])]) =
        .error e := by
  have hsorted : Toml.read sortedText = some sortedEntries := by decide +kernel
  have hshuffled : Toml.read shuffledText = some shuffledEntries := by decide +kernel
  have hpair : Manifest.ofText sortedText = .ok pairManifest := by decide +kernel
  have hcolour : Toml.read "defaults.colour = \"red\"" =
      some [("defaults", .table [("colour", .string "red")])] := by decide +kernel
  have hcontains : manifestOutline.Contains defaultsSchema.keys [("colour", .string "red")]
      (.table [("defaults", .table [("colour", .string "red")])]) :=
    .field List.mem_cons_self .here
  obtain ⟨-, hunknown, -, -, hread, htexts⟩ := keys_in_any_order
  refine ⟨hsorted, hshuffled, reordered_entries, hpair, ?_, hunknown _ _ _
    (hread _ _ hcolour) hcontains "colour" (by decide) (by decide)⟩
  rcases htexts Toml.read hread _ _ _ _ hsorted hshuffled reordered_entries with
    ⟨e, -, he, -⟩ | ⟨m, hm, hm'⟩
  · rw [Manifest.ofText, he] at hpair
    cases hpair
  · rw [Manifest.ofText, hm] at hpair
    rw [Manifest.ofText, hm', Except.ok.inj hpair]

end Pair

end StagedBuilder
