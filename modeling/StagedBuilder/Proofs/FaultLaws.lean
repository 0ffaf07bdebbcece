import StagedBuilder.Manifest.Load
import StagedBuilder.Proofs.TypeReading

namespace StagedBuilder

open Text

namespace Text

variable {pat s before after : List Char}

theorem eq_of_cut? (h : cut? pat s = some (before, after)) : s = before ++ pat ++ after := by
  induction s generalizing before with
  | nil =>
    rw [cut?] at h
    split_ifs at h with hpat
    obtain ⟨rfl, rfl⟩ := Prod.mk.inj (Option.some.inj h)
    rw [hpat]
    rfl
  | cons c s ih =>
    rw [cut?] at h
    split_ifs at h with hhere
    · obtain ⟨rfl, rfl⟩ := Prod.mk.inj (Option.some.inj h)
      exact (List.prefix_iff_eq_append.1 (List.isPrefixOf_iff_prefix.1 hhere)).symm
    · obtain ⟨⟨front, rest⟩, hcut, heq⟩ := Option.map_eq_some_iff.1 h
      obtain ⟨rfl, rfl⟩ := Prod.mk.inj heq
      rw [ih hcut, List.cons_append, List.cons_append]

theorem cut?_eq_none_iff : cut? pat s = none ↔ ¬pat <:+: s := by
  induction s with
  | nil => simp [cut?]
  | cons c s ih =>
    rw [cut?, List.infix_cons_iff, not_or, ← ih, ← List.isPrefixOf_iff_prefix]
    split_ifs with hhere
    · simp [hhere]
    · simp [hhere]

end Text

def quotes : List Char := ['"', '\'']

def Quotes (text name : List Char) : Prop := ∃ quote ∈ quotes, quote :: name ++ [quote] <:+: text

/-- The span covers the name and nothing else, with one and the same quote on both sides. -/
structure Span.Shows (span : Span) (text name : List Char) (quote : Char) : Prop where
  quoted : quote ∈ quotes
  inside : slice? text span.offset (span.offset + span.length) = some name
  positive : 0 < span.offset
  before : slice? text (span.offset - 1) span.offset = some [quote]
  after : slice? text (span.offset + span.length) (span.offset + span.length + 1) = some [quote]

section Locate

variable {text name : List Char} {span : Span}

theorem mem_quotes_iff {quote : Char} : quote ∈ quotes ↔ quote = '"' ∨ quote = '\'' := by
  simp only [quotes, List.mem_cons, List.not_mem_nil, or_false]

theorem quote_of_enclosure :
    ∀ e ∈ enclosures, ∃ quote ∈ quotes, e.2 = [quote] ∧ [quote] <:+ e.1 := by
  have hends : ∀ e ∈ enclosures,
      e.2 = ['"'] ∧ ['"'] <:+ e.1 ∨ e.2 = ['\''] ∧ ['\''] <:+ e.1 := by decide
  intro e he
  rcases hends e he with h | h
  · exact ⟨_, mem_quotes_iff.2 (.inl rfl), h⟩
  · exact ⟨_, mem_quotes_iff.2 (.inr rfl), h⟩

theorem byteLength_quote {quote : Char} (h : quote ∈ quotes) : byteLength [quote] = 1 := by
  rcases mem_quotes_iff.1 h with rfl | rfl <;> decide

theorem shows_of_split {quote : Char} (hquote : quote ∈ quotes) {before after : List Char}
    (htext : text = before ++ ([quote] ++ (name ++ ([quote] ++ after)))) :
    Span.Shows ⟨byteLength before + 1, byteLength name⟩ text name quote where
  quoted := hquote
  inside := by
    rw [slice?_eq_some_iff]
    refine ⟨before ++ [quote], [quote] ++ after, by simp [htext], ?_, ?_⟩
    · rw [byteLength_append, byteLength_quote hquote]
    · rw [byteLength_append, byteLength_append, byteLength_quote hquote]
  positive := Nat.succ_pos _
  before := by
    rw [slice?_eq_some_iff]
    refine ⟨before, name ++ ([quote] ++ after), by simp [htext], rfl, ?_⟩
    rw [byteLength_append, byteLength_quote hquote]
  after := by
    rw [slice?_eq_some_iff]
    refine ⟨before ++ [quote] ++ name, after, by simp [htext], ?_, ?_⟩
    · rw [byteLength_append, byteLength_append, byteLength_quote hquote]
    · rw [byteLength_append, byteLength_append, byteLength_append, byteLength_quote hquote]

theorem shows_of_locate (h : locate text name = some span) :
    ∃ quote, span.Shows text name quote := by
  obtain ⟨⟨lead, tail⟩, hmem, hspan⟩ := List.exists_of_findSome?_eq_some h
  obtain ⟨⟨before, after⟩, hcut, rfl⟩ := Option.map_eq_some_iff.1 hspan
  obtain ⟨quote, hquote, rfl, front, rfl⟩ := quote_of_enclosure _ hmem
  refine ⟨quote, ?_⟩
  have htext : text = (before ++ front) ++ ([quote] ++ (name ++ ([quote] ++ after))) := by
    rw [eq_of_cut? hcut]
    simp
  have hshows := shows_of_split hquote htext
  rw [byteLength_append, Nat.add_assoc, ← byteLength_quote hquote, ← byteLength_append] at hshows
  exact hshows

theorem locate_eq_none_iff : locate text name = none ↔ ¬Quotes text name := by
  rw [locate, List.findSome?_eq_none_iff]
  simp only [Option.map_eq_none_iff, cut?_eq_none_iff]
  constructor
  · rintro h ⟨quote, hquote, hinfix⟩
    have hplain : ([quote], [quote]) ∈ enclosures := by
      rcases mem_quotes_iff.1 hquote with rfl | rfl <;> decide
    exact h _ hplain hinfix
  · rintro h ⟨lead, tail⟩ hmem hinfix
    obtain ⟨quote, hquote, rfl, front, rfl⟩ := quote_of_enclosure _ hmem
    refine h ⟨quote, hquote, List.IsInfix.trans ⟨front, [], ?_⟩ hinfix⟩
    simp

end Locate

/-- What a fault is about: the text that breaks the rule or, for a bad segment, the whole name that
it is in. Only an empty name with segments has nothing to show. -/
inductive Fault.About (m : Manifest) : Fault → String → Prop
  | keyword {name : String} (context : String) : About m ⟨.keyword name context, some name⟩ name
  | segment {name segment : String} (context : String) (mem : segment ∈ ClassName.segments name) :
      About m ⟨.keyword segment context, some name⟩ name
  | identifier {name : String} (context : String) (cause : IdentifierFault) :
      About m ⟨.identifier name context cause, some name⟩ name
  | unnamed (context : String) : About m ⟨.identifier "" context .empty, none⟩ ""
  | template {template : String} (context : String) :
      About m ⟨.template template context, some template⟩ template
  | package {package : String} (type : String) :
      About m ⟨.foreignPackage package type, some package⟩ package
  | params {type : String} : About m ⟨.paramsOfClass type, some type⟩ type
  | constructors {type : String} (kind : TypeKind) :
      About m ⟨.constructorsOf kind type, some type⟩ type
  | check {type check : String} {d : TypeDecl} (declared : (type, d) ∈ m.types)
      (given : d.check = some check) : About m ⟨.checkOf d.kind type, some check⟩ check
  | type {param : String} (type : String) : About m ⟨.emptyType param type, some param⟩ param
  | repeated {param : String} (type : String) :
      About m ⟨.duplicateParameter param type, some param⟩ param

namespace ParameterDecl

def names (p : ParameterDecl) : List String := p.name :: p.accessor.toList

end ParameterDecl

namespace TypeDecl

def texts (name : String) (d : TypeDecl) : List String :=
  name :: (d.package.toList ++ d.builder.toList ++ d.implementation.toList ++ d.check.toList ++
    (d.params ++ d.constructors.flatMap (·.params)).flatMap (·.names))

end TypeDecl

def Manifest.texts (m : Manifest) : List String :=
  m.defaults.builder :: m.defaults.implementation ::
    m.types.flatMap fun (name, d) => d.texts name

section About

open Fault (About)

variable {m : Manifest} {path : List String} {kind name type : String} {d : TypeDecl} {f : Fault}

theorem about_of_nameFault? (h : nameFault? path kind name = some f) : About m f name := by
  unfold nameFault? at h
  split_ifs at h
  · obtain rfl := Option.some.inj h
    exact .keyword _
  · obtain ⟨cause, -, rfl⟩ := Option.map_eq_some_iff.1 h
    exact .identifier _ _

theorem about_of_qualifiedNameFault? (h : qualifiedNameFault? path kind name = some f) :
    About m f name := by
  unfold qualifiedNameFault? at h
  split_ifs at h with hname
  · obtain rfl := Option.some.inj h
    exact hname ▸ .unnamed _
  · obtain ⟨segment, hsegment, hfault⟩ := List.exists_of_findSome?_eq_some h
    cases hcause : identifierFault? segment with
    | some cause =>
      rw [hcause] at hfault
      obtain rfl := Option.some.inj hfault
      exact .identifier _ _
    | none =>
      rw [hcause] at hfault
      dsimp only at hfault
      split_ifs at hfault
      obtain rfl := Option.some.inj hfault
      exact .segment _ hsegment

theorem about_of_templateFault? (h : templateFault? path kind name = some f) : About m f name := by
  unfold templateFault? at h
  dsimp only at h
  split_ifs at h
  obtain rfl := Option.some.inj h
  exact .template _

theorem about_of_packageFault? (h : packageFault? path type name = some f) : About m f name := by
  unfold packageFault? at h
  by_cases hname : name = ""
  · rw [if_pos hname] at h
    cases h
  · rw [if_neg hname, Option.orElse_eq_or, Option.or_eq_some_iff] at h
    rcases h with h | ⟨-, h⟩
    · exact about_of_qualifiedNameFault? h
    · split_ifs at h
      obtain rfl := Option.some.inj h
      exact .package _

theorem about_of_kindFault? (h : d.kindFault? name = some f) : About m f name := by
  unfold TypeDecl.kindFault? at h
  split at h
  · split_ifs at h
    obtain rfl := Option.some.inj h
    exact .params
  · split_ifs at h
    obtain rfl := Option.some.inj h
    exact .constructors _

theorem about_of_checkFault? {check : String} (hd : (type, d) ∈ m.types)
    (hcheck : d.check = some check) (h : d.checkFault? path type check = some f) :
    About m f check := by
  unfold TypeDecl.checkFault? at h
  split_ifs at h
  · exact about_of_nameFault? h
  · obtain rfl := Option.some.inj h
    exact .check hd hcheck

theorem about_of_parameterFault? {p : ParameterDecl} (h : parameterFault? path type p = some f) :
    ∃ x ∈ p.names, About m f x := by
  simp only [parameterFault?, Option.orElse_eq_or, Option.or_eq_some_iff,
    Option.bind_eq_some_iff] at h
  rcases h with h | ⟨-, ⟨accessor, haccessor, h⟩ | ⟨-, h⟩⟩
  · exact ⟨p.name, .head _, about_of_nameFault? h⟩
  · exact ⟨accessor, .tail _ (Option.mem_toList.2 haccessor), about_of_nameFault? h⟩
  · split_ifs at h
    obtain rfl := Option.some.inj h
    exact ⟨p.name, .head _, .type _⟩

theorem about_of_parametersFault? {seen : List String} {ps : List ParameterDecl}
    (h : parametersFault? path type seen ps = some f) :
    ∃ x ∈ ps.flatMap (·.names), About m f x := by
  induction ps generalizing seen with
  | nil => cases h
  | cons p ps ih =>
    rw [parametersFault?, Option.orElse_eq_or, Option.or_eq_some_iff] at h
    rw [List.flatMap_cons]
    rcases h with h | ⟨-, h⟩
    · obtain ⟨x, hx, habout⟩ := about_of_parameterFault? h
      exact ⟨x, List.mem_append_left _ hx, habout⟩
    · split_ifs at h
      · obtain rfl := Option.some.inj h
        exact ⟨p.name, List.mem_append_left _ (.head _), .repeated _⟩
      · obtain ⟨x, hx, habout⟩ := ih h
        exact ⟨x, List.mem_append_right _ hx, habout⟩

theorem about_of_typeFault? (hd : (name, d) ∈ m.types) (h : d.fault? path name = some f) :
    ∃ x ∈ d.texts name, About m f x := by
  simp only [TypeDecl.fault?, Option.orElse_eq_or, Option.or_eq_some_iff,
    Option.bind_eq_some_iff] at h
  have hparams {ps : List ParameterDecl} (hps : ps ⊆ d.params ++ d.constructors.flatMap (·.params))
      (h : parametersFault? path name [] ps = some f) : ∃ x ∈ d.texts name, About m f x := by
    obtain ⟨x, hx, habout⟩ := about_of_parametersFault? h
    obtain ⟨p, hp, hx⟩ := List.mem_flatMap.1 hx
    have hmem := List.mem_flatMap.2 ⟨p, hps hp, hx⟩
    exact ⟨x, .tail _ (List.mem_append_right _ hmem), habout⟩
  rcases h with ⟨package, hpackage, h⟩ | ⟨-, ⟨builder, hbuilder, h⟩ | ⟨-, h⟩⟩
  · exact ⟨package, by simp [TypeDecl.texts, hpackage], about_of_packageFault? h⟩
  · exact ⟨builder, by simp [TypeDecl.texts, hbuilder], about_of_templateFault? h⟩
  · rcases h with ⟨implementation, himplementation, h⟩ | ⟨-, h | ⟨-, h⟩⟩
    · exact ⟨implementation, by simp [TypeDecl.texts, himplementation], about_of_templateFault? h⟩
    · exact ⟨name, .head _, about_of_kindFault? h⟩
    · rcases h with ⟨check, hcheck, h⟩ | ⟨-, h | ⟨-, h⟩⟩
      · exact ⟨check, by simp [TypeDecl.texts, hcheck], about_of_checkFault? hd hcheck h⟩
      · exact hparams (List.subset_append_left _ _) h
      · obtain ⟨c, hc, h⟩ := List.exists_of_findSome?_eq_some h
        exact hparams (fun p hp => List.mem_append_right _ (List.mem_flatMap.2 ⟨c, hc, hp⟩)) h

theorem about_of_fault? (h : m.fault? = some f) : ∃ x ∈ m.texts, About m f x := by
  simp only [Manifest.fault?, Option.orElse_eq_or, Option.or_eq_some_iff] at h
  rcases h with h | ⟨-, h | ⟨-, h⟩⟩
  · exact ⟨_, .head _, about_of_templateFault? h⟩
  · exact ⟨_, .tail _ (.head _), about_of_templateFault? h⟩
  · obtain ⟨⟨name, d⟩, hd, h⟩ := List.exists_of_findSome?_eq_some h
    have hmem {x : String} (hx : x ∈ d.texts name) : x ∈ m.texts :=
      .tail _ (.tail _ (List.mem_flatMap.2 ⟨(name, d), hd, hx⟩))
    rw [Option.or_eq_some_iff] at h
    rcases h with h | ⟨-, h⟩
    · exact ⟨name, hmem (.head _), about_of_qualifiedNameFault? h⟩
    · obtain ⟨x, hx, habout⟩ := about_of_typeFault? hd h
      exact ⟨x, hmem hx, habout⟩

theorem Fault.About.span?_eq {x : String} (h : About m f x) (text : String) :
    f.sought = some x ∧ f.span? text = locate text.toList x.toList ∨
      f.sought = none ∧ x = "" ∧ f.span? text = none := by
  cases h with
  | unnamed => exact .inr ⟨rfl, rfl, rfl⟩
  | _ => exact .inl ⟨rfl, rfl⟩

end About

theorem Manifest.validate_eq_error_iff {m : Manifest} {file text : String} {e : ManifestError} :
    m.validate file text = .error e ↔
      ∃ fault, m.fault? = some fault ∧ e = .invalid file fault (fault.span? text) := by
  unfold validate
  cases m.fault? with
  | none => simp
  | some fault => simp [eq_comm]

/--
Whether a manifest is judged faulty, and all that is said then, is independent of the text it was
read from and of the name of the file. The text decides only on where the fault is shown: at a place
where exactly what the fault is about stands between two quotes of a kind, unless there is none.
-/
theorem faults_are_shown (m : Manifest) (file text : String) :
    (∀ file' text',
      (m.validate file text).mapError (fun e => (e.message, e.code, e.help)) =
        (m.validate file' text').mapError (fun e => (e.message, e.code, e.help))) ∧
    ∀ e, m.validate file text = .error e →
      ∃ fault span x, e = .invalid file fault span ∧ x ∈ m.texts ∧ fault.About m x ∧
        (∀ place, span = some place → ∃ quote, place.Shows text.toList x.toList quote) ∧
        (span = none ↔ ¬Quotes text.toList x.toList ∨ fault.sought = none ∧ x = "") := by
  constructor
  · intro file' text'
    unfold Manifest.validate
    cases m.fault? <;> rfl
  · intro e he
    obtain ⟨fault, hfault, rfl⟩ := Manifest.validate_eq_error_iff.1 he
    obtain ⟨x, hx, habout⟩ := about_of_fault? hfault
    refine ⟨fault, _, x, rfl, hx, habout, ?_⟩
    rcases habout.span?_eq text with ⟨hsought, hspan⟩ | ⟨hsought, hempty, hspan⟩
    · rw [hspan, locate_eq_none_iff, hsought]
      exact ⟨fun place => shows_of_locate, by simp⟩
    · rw [hspan]
      exact ⟨nofun, iff_of_true rfl (.inr ⟨hsought, hempty⟩)⟩

def share : Manifest where
  types := [("me.Share", {
    kind := .record
    params := [{ name := "größe", type := "int" }, { name := "größe", type := "long" }] })]

def shareText : String :=
  "[types.'me.Share']\nkind = 'record'\nparams = [\n  \x7b name = 'größe', type = 'int' \x7d,\n" ++
    "  \x7b name = 'größe', type = 'long' \x7d,\n]\n"

theorem share_shown :
    share.validate "share.toml" shareText = .error (.invalid "share.toml"
      ⟨.duplicateParameter "größe" "me.Share", some "größe"⟩ (some ⟨58, 7⟩)) ∧
    ∃ quote, Span.Shows ⟨58, 7⟩ shareText.toList "größe".toList quote := by
  have herror : share.validate "share.toml" shareText = .error (.invalid "share.toml"
      ⟨.duplicateParameter "größe" "me.Share", some "größe"⟩ (some ⟨58, 7⟩)) := by decide +kernel
  obtain ⟨-, herrors⟩ := faults_are_shown share "share.toml" shareText
  obtain ⟨fault, span, x, heq, -, habout, hshown, -⟩ := herrors _ herror
  obtain ⟨-, rfl, rfl⟩ := ManifestError.invalid.inj heq
  obtain rfl : "größe" = x := by
    rcases habout.span?_eq shareText with ⟨hsought, -⟩ | ⟨hsought, -⟩
    · exact Option.some.inj hsought
    · cases hsought
  exact ⟨herror, hshown _ rfl⟩

end StagedBuilder
