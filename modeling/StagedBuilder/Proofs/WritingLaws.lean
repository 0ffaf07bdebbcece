import StagedBuilder.Proofs.ClaimLaws
import StagedBuilder.Proofs.PathLaws
import StagedBuilder.Proofs.PlanLaws

/-!
Generated files on disk. Files of distinct classes have distinct places, so what a run has written
is not disturbed by what it writes afterwards, and there is nothing left to write for another run.
-/

namespace StagedBuilder

open FileTree (Extends)

variable {s : SupportClasses} {base : String} {t t' : FileTree}

namespace SourceFile

def pathBelow (base : String) (f : SourceFile) : String := ClassName.step base f.path

def placeBelow (base : String) (f : SourceFile) : List String := FileTree.place (f.pathBelow base)

variable {f g : SourceFile} {r : WriteResult}

theorem write_of_read (h : t.read (f.pathBelow base) = .ok f.content) :
    f.write FileTree.access base t = (.ok .unchanged, t) := by
  rw [pathBelow] at h
  simp only [write, bind, StateT.bind, FileTree.access_read, h, if_pos]
  rfl

theorem write_of_not_read {result : Except FileFault Unit}
    (hread : t.read (f.pathBelow base) ≠ .ok f.content)
    (hwrite : t.write (f.pathBelow base) f.content.toUTF8 = (t', result)) :
    f.write FileTree.access base t = (result.map fun _ => .written, t') := by
  have haccess := FileTree.access_write hwrite
  rw [pathBelow] at hread haccess
  simp only [write, bind, StateT.bind, FileTree.access_read]
  cases hr : t.read (ClassName.step base f.path) with
  | error e =>
    simp only [StateT.bind, haccess]
    rfl
  | ok content =>
    have hne : content ≠ f.content := by
      rintro rfl
      exact hread hr
    simp only [if_neg hne, StateT.bind, haccess]
    rfl

theorem extends_write {result : Except FileFault WriteResult}
    (h : f.write FileTree.access base t = (result, t')) : Extends [f.placeBelow base] t t' := by
  by_cases hread : t.read (f.pathBelow base) = .ok f.content
  · obtain ⟨-, rfl⟩ := Prod.mk.inj ((write_of_read hread).symm.trans h)
    exact .refl _ _
  · rcases hwrite : t.write (f.pathBelow base) f.content.toUTF8 with ⟨t₁, result₁⟩
    obtain ⟨-, rfl⟩ := Prod.mk.inj ((write_of_not_read hread hwrite).symm.trans h)
    exact FileTree.extends_write hwrite

theorem write_ok (h : f.write FileTree.access base t = (.ok r, t')) :
    t'.read (f.pathBelow base) = .ok f.content ∧
      (r = .written ↔ t.read (f.pathBelow base) ≠ .ok f.content) := by
  by_cases hread : t.read (f.pathBelow base) = .ok f.content
  · obtain ⟨hr, rfl⟩ := Prod.mk.inj ((write_of_read hread).symm.trans h)
    obtain rfl := Except.ok.inj hr
    exact ⟨hread, by simp [hread]⟩
  · rcases hwrite : t.write (f.pathBelow base) f.content.toUTF8 with ⟨t₁, e | _⟩
    · exact nomatch (Prod.mk.inj ((write_of_not_read hread hwrite).symm.trans h)).1
    · obtain ⟨hr, rfl⟩ := Prod.mk.inj ((write_of_not_read hread hwrite).symm.trans h)
      obtain rfl := Except.ok.inj hr
      exact ⟨FileTree.read_eq_ok_iff.2 (FileTree.write_ok hwrite), by simp [hread]⟩

end SourceFile

section Runs

open SourceFile

variable {f : SourceFile} {fs : List SourceFile} {r : WriteResult}
  {results before after : List (SourceFile × WriteResult)}

theorem writeAll_nil : writeAll FileTree.access base [] t = (.ok [], t) := rfl

theorem writeAll_cons_eq_ok_iff :
    writeAll FileTree.access base (f :: fs) t = (.ok results, t') ↔
      ∃ r t₁ rest, f.write FileTree.access base t = (.ok r, t₁) ∧
        writeAll FileTree.access base fs t₁ = (.ok rest, t') ∧ (f, r) :: rest = results := by
  simp only [writeAll, bind, StateT.bind]
  rcases f.write FileTree.access base t with ⟨e | r, t₁⟩
  · refine iff_of_false (fun h => nomatch (Prod.mk.inj h).1) ?_
    rintro ⟨r, t₁', rest, hf, -, -⟩
    exact nomatch (Prod.mk.inj hf).1
  · simp only [bind, StateT.bind]
    rcases hrest : writeAll FileTree.access base fs t₁ with ⟨e | rest, t₂⟩
    · refine iff_of_false (fun h => nomatch (Prod.mk.inj h).1) ?_
      rintro ⟨r', t₁', rest, hf, hfs, -⟩
      obtain ⟨-, rfl⟩ := Prod.mk.inj hf
      exact nomatch (Prod.mk.inj (hrest.symm.trans hfs)).1
    · refine ⟨?_, ?_⟩
      · intro h
        obtain ⟨hresults, rfl⟩ := Prod.mk.inj h
        exact ⟨r, t₁, rest, rfl, hrest, Except.ok.inj hresults⟩
      · rintro ⟨r', t₁', rest', hf, hfs, rfl⟩
        obtain ⟨hr, rfl⟩ := Prod.mk.inj hf
        obtain ⟨hrest', rfl⟩ := Prod.mk.inj (hrest.symm.trans hfs)
        obtain rfl := Except.ok.inj hr
        obtain rfl := Except.ok.inj hrest'
        rfl

theorem writeAll_fst (h : writeAll FileTree.access base fs t = (.ok results, t')) :
    results.map Prod.fst = fs := by
  induction fs generalizing t results with
  | nil =>
    obtain ⟨hresults, -⟩ := Prod.mk.inj (writeAll_nil.symm.trans h)
    rw [← Except.ok.inj hresults, List.map_nil]
  | cons f fs ih =>
    obtain ⟨r, t₁, rest, -, hrest, rfl⟩ := writeAll_cons_eq_ok_iff.1 h
    rw [List.map_cons, ih hrest]

theorem extends_writeAll
    {result : Except GenerateError (List (SourceFile × WriteResult))}
    (h : writeAll FileTree.access base fs t = (result, t')) :
    Extends (fs.map (placeBelow base)) t t' := by
  induction fs generalizing t result with
  | nil =>
    obtain ⟨-, rfl⟩ := Prod.mk.inj h
    exact .refl _ _
  | cons f fs ih =>
    simp only [writeAll, bind, StateT.bind] at h
    rcases hf : f.write FileTree.access base t with ⟨e | r, t₁⟩
    · rw [hf] at h
      obtain ⟨-, rfl⟩ := Prod.mk.inj h
      exact (extends_write hf).mono (by simp)
    · rcases hrest : writeAll FileTree.access base fs t₁ with ⟨rest, t₂⟩
      rw [hf] at h
      simp only [bind, StateT.bind, hrest] at h
      obtain ⟨-, rfl⟩ := Prod.mk.inj h
      exact (extends_write hf).trans (ih hrest)

theorem writeAll_ok (h : writeAll FileTree.access base fs t = (.ok results, t'))
    (hplaces : (fs.map (placeBelow base)).Nodup) :
    ∀ f ∈ fs, t'.read (f.pathBelow base) = .ok f.content := by
  induction fs generalizing t results with
  | nil => exact List.forall_mem_nil _
  | cons f fs ih =>
    obtain ⟨r, t₁, rest, hf, hrest, rfl⟩ := writeAll_cons_eq_ok_iff.1 h
    rw [List.map_cons, List.nodup_cons] at hplaces
    have hread := (extends_writeAll hrest).read hplaces.1 (write_ok hf).1
    exact List.forall_mem_cons.2 ⟨hread, ih hrest hplaces.2⟩

theorem writeAll_split
    (h : writeAll FileTree.access base fs t = (.ok (before ++ (f, r) :: after), t')) :
    ∃ t₀ t₁, writeAll FileTree.access base (before.map Prod.fst) t = (.ok before, t₀) ∧
      f.write FileTree.access base t₀ = (.ok r, t₁) := by
  induction before generalizing fs t with
  | nil =>
    cases fs with
    | nil => exact nomatch Except.ok.inj (Prod.mk.inj (writeAll_nil.symm.trans h)).1
    | cons g gs =>
      obtain ⟨r', t₁, rest, hg, -, heq⟩ := writeAll_cons_eq_ok_iff.1 h
      obtain ⟨⟨rfl, rfl⟩, -⟩ := by simpa using heq
      exact ⟨t, t₁, writeAll_nil, hg⟩
  | cons b before ih =>
    cases fs with
    | nil => exact nomatch Except.ok.inj (Prod.mk.inj (writeAll_nil.symm.trans h)).1
    | cons g gs =>
      obtain ⟨r', t₁, rest, hg, hrest, heq⟩ := writeAll_cons_eq_ok_iff.1 h
      obtain ⟨rfl, rfl⟩ := List.cons.inj heq
      obtain ⟨t₀, t₂, hbefore, hf⟩ := ih hrest
      exact ⟨t₀, t₂, writeAll_cons_eq_ok_iff.2 ⟨r', t₁, before, hg, hbefore, rfl⟩, hf⟩

theorem writeAll_of_read (h : ∀ f ∈ fs, t.read (f.pathBelow base) = .ok f.content) :
    writeAll FileTree.access base fs t = (.ok (fs.map (·, .unchanged)), t) := by
  induction fs with
  | nil => rfl
  | cons f fs ih =>
    obtain ⟨hf, hfs⟩ := List.forall_mem_cons.1 h
    exact writeAll_cons_eq_ok_iff.2 ⟨_, _, _, write_of_read hf, ih hfs, rfl⟩

end Runs

section Synthesis

variable {plans : List Plan} {files : List SourceFile}

theorem synthesize_eq (s : SupportClasses) (plans : List Plan) :
    synthesize s plans =
      (plans.mapM fun p : Plan => (p.files s).mapError (GenerateError.synthesis p.type)).map
        List.flatten := by
  induction plans with
  | nil => rfl
  | cons p ps ih =>
    rw [synthesize, List.mapM_cons, ih]
    cases (p.files s).mapError (GenerateError.synthesis p.type) with
    | error e => rfl
    | ok fs =>
      simp only [bind, Except.bind]
      cases ps.mapM fun p : Plan => (p.files s).mapError (GenerateError.synthesis p.type) <;> rfl

theorem synthesize_eq_error_iff {e : GenerateError} :
    synthesize s plans = .error e ↔
      ∃ before p after, plans = before ++ p :: after ∧
        (∀ q ∈ before, ∃ fs, q.files s = .ok fs) ∧
        ∃ cause, p.files s = .error cause ∧ .synthesis p.type cause = e := by
  simp only [synthesize_eq, map_eq_error_iff, mapM_eq_error_iff, mapError_eq_error_iff,
    mapError_eq_ok_iff]

theorem classNames_of_synthesize (h : synthesize s plans = .ok files) :
    files.map (·.className) = plans.flatMap (·.classNames) := by
  rw [synthesize_eq] at h
  obtain ⟨fss, hfss, rfl⟩ := map_eq_ok_iff.1 h
  rw [mapM_eq_ok_iff] at hfss
  clear h
  induction hfss with
  | nil => rfl
  | cons hp _ ih =>
    rw [List.flatten_cons, List.map_append, List.flatMap_cons,
      Plan.classNames_of_files (mapError_eq_ok_iff.1 hp), ih]

end Synthesis

theorem generate_eq_ok_iff {plans : List Plan} {files : List SourceFile} {g : Generated}
    (hfiles : synthesize s plans = .ok files) :
    generate FileTree.access s plans base false t = (.ok g, t') ↔
      ∃ results, writeAll FileTree.access base files t = (.ok results, t') ∧
        .onDisk base results = g := by
  simp only [generate, hfiles, Bool.false_eq_true, if_false, bind, StateT.bind]
  rcases hwritten : writeAll FileTree.access base files t with ⟨e | results, t₁⟩
  · refine iff_of_false (fun h => nomatch (Prod.mk.inj h).1) ?_
    rintro ⟨results, hresults, -⟩
    exact nomatch (Prod.mk.inj hresults).1
  · refine ⟨?_, ?_⟩
    · intro h
      obtain ⟨hg, rfl⟩ := Prod.mk.inj h
      exact ⟨results, rfl, Except.ok.inj hg⟩
    · rintro ⟨results', hresults, rfl⟩
      obtain ⟨hresults', rfl⟩ := Prod.mk.inj hresults
      obtain rfl := Except.ok.inj hresults'
      rfl

/-- What is on disk after a run that succeeded, and what the run reports. -/
structure WritesExactly (base : String) (files : List SourceFile) (t : FileTree)
    (results : List (SourceFile × WriteResult)) (t' : FileTree) : Prop where
  order : results.map Prod.fst = files
  read : ∀ f ∈ files, t'.read (f.pathBelow base) = .ok f.content
  stored : ∀ f ∈ files, t'.entry? (f.placeBelow base) = some (.file f.content.toUTF8)
  others : ∀ l ∉ files.map (·.placeBelow base), ∀ content,
    t'.entry? l = some (.file content) ↔ t.entry? l = some (.file content)
  directories : ∀ l, t.entry? l = some .directory → t'.entry? l = some .directory
  turn : ∀ before f r after, results = before ++ (f, r) :: after →
    ∃ t₀, writeAll FileTree.access base (before.map Prod.fst) t = (.ok before, t₀) ∧
      (r = .written ↔ t₀.read (f.pathBelow base) ≠ .ok f.content)
  unchanged : ∀ f r, (f, r) ∈ results → t.read (f.pathBelow base) = .ok f.content → r = .unchanged
  kept : ∀ f r, (f, r) ∈ results → r = .unchanged →
    t.entry? (f.placeBelow base) = some (.file f.content.toUTF8)
  report : t.Closed → t.BacksOut base → ∀ f r, (f, r) ∈ results →
    (r = .written ↔ t.entry? (f.placeBelow base) ≠ some (.file f.content.toUTF8))

namespace SourceFile

variable {f : SourceFile}

theorem read_of_entry (hname : ClassName.Placeable f.className) (ht : t.Closed)
    (hback : t.BacksOut base)
    (he : t.entry? (f.placeBelow base) = some (.file f.content.toUTF8)) :
    t.read (f.pathBelow base) = .ok f.content := by
  obtain ⟨names, file, hparts⟩ : ∃ names file, ClassName.parts f.className = names ++ [file] :=
    ⟨_, _, rfl⟩
  have hcomponents : FileTree.components (f.pathBelow base) =
      ClassName.front base ++ names ++ [file] := by
    rw [List.append_assoc, ← hparts]
    exact hname.components_below base
  obtain ⟨hnames, hfile⟩ := List.forall_mem_append.1 (hparts ▸ hname.isEntryName)
  rw [List.forall_mem_singleton] at hfile
  have hplace : f.placeBelow base =
      (ClassName.front base ++ names).foldl FileTree.enter [] ++ [file] := by
    rw [placeBelow, FileTree.place, hcomponents, List.foldl_append, List.foldl_cons,
      List.foldl_nil, hfile.enter]
  refine FileTree.read_eq_ok_iff.2 ⟨?_, ?_, he⟩
  · intro hpath
    have hroot : f.placeBelow base = [] := by
      rw [placeBelow, hpath]
      rfl
    rw [hroot, FileTree.entry?_root] at he
    cases he
  · rw [hplace] at he
    have hfollow := ht.follow hfile.enter (fun _ _ => hback.front_append hnames) he
    rwa [← hcomponents, ← hplace] at hfollow

end SourceFile

section Exactness

variable {files : List SourceFile} {results : List (SourceFile × WriteResult)}

theorem nodup_places (hnames : ∀ f ∈ files, ClassName.Spelled f.className)
    (hdistinct : (files.map (·.className)).Nodup) (base : String) :
    (files.map (·.placeBelow base)).Nodup := by
  refine List.Nodup.map_on ?_ hdistinct.of_map
  intro f hf g hg heq
  exact List.inj_on_of_nodup_map hdistinct hf hg
    ((hnames f hf).eq_of_place (hnames g hg) heq)

theorem exists_turn (hplaces : (files.map (·.placeBelow base)).Nodup)
    {before after : List (SourceFile × WriteResult)} {f : SourceFile} {r : WriteResult}
    (h : writeAll FileTree.access base files t = (.ok (before ++ (f, r) :: after), t')) :
    ∃ t₀, writeAll FileTree.access base (before.map Prod.fst) t = (.ok before, t₀) ∧
      (r = .written ↔ t₀.read (f.pathBelow base) ≠ .ok f.content) ∧
      ∃ places, Extends places t t₀ ∧ f.placeBelow base ∉ places := by
  obtain ⟨t₀, t₁, hbefore, hf⟩ := writeAll_split h
  have hfiles := writeAll_fst h
  rw [← hfiles, List.map_append, List.map_append, List.map_cons, List.map_cons] at hplaces
  obtain ⟨-, -, hdisjoint⟩ := List.nodup_append'.1 hplaces
  exact ⟨t₀, hbefore, (SourceFile.write_ok hf).2, _, extends_writeAll hbefore,
    fun hmem => hdisjoint hmem List.mem_cons_self⟩

theorem writesExactly_of_writeAll (hnames : ∀ f ∈ files, ClassName.WellFormed f.className)
    (hdistinct : (files.map (·.className)).Nodup)
    (h : writeAll FileTree.access base files t = (.ok results, t')) :
    WritesExactly base files t results t' := by
  have hplaces := nodup_places (fun f hf => (hnames f hf).spelled) hdistinct base
  have hfiles := writeAll_fst h
  have hextends := extends_writeAll h
  have hread := writeAll_ok h hplaces
  have hturn : ∀ f r, (f, r) ∈ results → ∃ t₀ places, Extends places t t₀ ∧
      f.placeBelow base ∉ places ∧ (r = .written ↔ t₀.read (f.pathBelow base) ≠ .ok f.content) := by
    intro f r hmem
    obtain ⟨before, after, rfl⟩ := List.append_of_mem hmem
    obtain ⟨t₀, -, hr, places, hkept, hplace⟩ := exists_turn hplaces h
    exact ⟨t₀, places, hkept, hplace, hr⟩
  have hunchanged : ∀ f r, (f, r) ∈ results → t.read (f.pathBelow base) = .ok f.content →
      r = .unchanged := by
    intro f r hmem hf
    obtain ⟨t₀, places, hkept, hplace, hr⟩ := hturn f r hmem
    cases r with
    | unchanged => rfl
    | written => exact absurd (hkept.read hplace hf) (hr.1 rfl)
  have hkept : ∀ f r, (f, r) ∈ results → r = .unchanged →
      t.entry? (f.placeBelow base) = some (.file f.content.toUTF8) := by
    intro f r hmem hr'
    obtain ⟨t₀, places, hkept, hplace, hr⟩ := hturn f r hmem
    have hf : t₀.read (f.pathBelow base) = .ok f.content := by
      by_contra hne
      rw [hr.2 hne] at hr'
      cases hr'
    exact (hkept.file_iff hplace _).1 (FileTree.read_eq_ok_iff.1 hf).2.2
  exact {
    order := hfiles
    read := hread
    stored := fun f hf => (FileTree.read_eq_ok_iff.1 (hread f hf)).2.2
    others := fun l hl => hextends.file_iff hl
    directories := hextends.directories
    turn := by
      rintro before f r after rfl
      obtain ⟨t₀, hbefore, hr, -⟩ := exists_turn hplaces h
      exact ⟨t₀, hbefore, hr⟩
    unchanged := hunchanged
    kept := hkept
    report := by
      intro ht hback f r hmem
      have hname := (hnames f (hfiles ▸ List.mem_map_of_mem hmem)).spelled.placeable
      cases r with
      | unchanged => simp [hkept f _ hmem rfl]
      | written =>
        refine iff_of_true rfl fun he => ?_
        exact nomatch hunchanged f _ hmem (SourceFile.read_of_entry hname ht hback he) }

end Exactness

section Manifests

variable {m : Manifest} {plans : List Plan}

theorem nodup_classNames (h : m.plans = .ok plans) : (plans.flatMap (·.classNames)).Nodup :=
  (Manifest.plansAfter_eq_ok_iff.1 h).2.1

/--
Nothing is written unless all files can be made. If the run succeeds then they are there, all else
is as it was, and another run finds nothing to write.
-/
theorem writing_is_exact (s : SupportClasses) (hplans : m.plans = .ok plans)
    (hnames : ∀ p ∈ plans, ∀ n ∈ p.classNames, ClassName.WellFormed n) (base : String)
    (t : FileTree) :
    ((∃ p ∈ plans, ∃ e, p.files s = .error e) →
      ∃ before p after cause, plans = before ++ p :: after ∧
        (∀ q ∈ before, ∃ files, q.files s = .ok files) ∧ p.files s = .error cause ∧
        ∀ dryRun, generate FileTree.access s plans base dryRun t =
          (.error (.synthesis p.type cause), t)) ∧
    ((∀ p ∈ plans, ∃ files, p.files s = .ok files) →
      ∃ files, synthesize s plans = .ok files ∧
        generate FileTree.access s plans base true t = (.ok (.preview files), t) ∧
        ∀ g t', generate FileTree.access s plans base false t = (.ok g, t') →
          ∃ results, g = .onDisk base results ∧ WritesExactly base files t results t' ∧
            generate FileTree.access s plans base false t' =
              (.ok (.onDisk base (files.map (·, .unchanged))), t')) := by
  refine ⟨?_, ?_⟩
  · rintro ⟨p, hp, e, he⟩
    have hfails : ∃ e, synthesize s plans = .error e := by
      cases hs : synthesize s plans with
      | error e => exact ⟨e, rfl⟩
      | ok files =>
        obtain ⟨fs, hfs⟩ := (synthesize_isOk_iff s plans).1 ⟨files, hs⟩ p hp
        rw [he] at hfs
        cases hfs
    obtain ⟨e', he'⟩ := hfails
    obtain ⟨before, q, after, hsplit, hbefore, cause, hcause, rfl⟩ := synthesize_eq_error_iff.1 he'
    refine ⟨before, q, after, cause, hsplit, hbefore, hcause, fun dryRun => ?_⟩
    rw [generate, he']
    rfl
  · intro hall
    obtain ⟨files, hfiles⟩ := (synthesize_isOk_iff s plans).2 hall
    have hclassNames := classNames_of_synthesize hfiles
    have hwellFormed : ∀ f ∈ files, ClassName.WellFormed f.className := by
      intro f hf
      have hmem : f.className ∈ plans.flatMap (·.classNames) :=
        hclassNames ▸ List.mem_map_of_mem hf
      obtain ⟨p, hp, hn⟩ := List.mem_flatMap.1 hmem
      exact hnames p hp _ hn
    have hdistinct : (files.map (·.className)).Nodup := hclassNames ▸ nodup_classNames hplans
    refine ⟨files, hfiles, by rw [generate_dryRun, hfiles]; rfl, ?_⟩
    intro g t' h
    obtain ⟨results, hresults, rfl⟩ := (generate_eq_ok_iff hfiles).1 h
    have hexact := writesExactly_of_writeAll hwellFormed hdistinct hresults
    exact ⟨results, rfl, hexact,
      (generate_eq_ok_iff hfiles).2 ⟨_, writeAll_of_read hexact.read, rfl⟩⟩

end Manifests

section Shapes

def shapes : Manifest where
  types := [("me.Shape", { kind := .interface, params := [{ name := "sides", type := "int" }] })]

def shapePlan : Plan where
  kind := .interface
  builder := {
    target := "me.Shape"
    name := "me.builder.ShapeBuilder"
    params := [{ name := "sides", type := .parsed (.leaf "int") }]
    construction := .delegate "me.builder.ShapeImpl" }

def shapeBuilder : SourceFile where
  className := "me.builder.ShapeBuilder"
  content := (shapePlan.builder.unit {}).text shapePlan.builder.ownNames

def shapeImpl : SourceFile where
  className := "me.builder.ShapeImpl"
  content :=
    let i : Implementation := {
      interface := "me.Shape"
      name := "me.builder.ShapeImpl"
      params := shapePlan.builder.params }
    (i.unit {}).text (.ofOwner i.name)

theorem plans_shapes : shapes.plans = .ok [shapePlan] := by decide +kernel

theorem wellFormed_shapes : ∀ p ∈ [shapePlan], ∀ n ∈ p.classNames, ClassName.WellFormed n := by
  have hnames : ∀ n ∈ shapePlan.classNames, (ClassName.segments n).all isIdentifier = true := by
    simp only [List.forall_mem_cons, Plan.classNames]
    decide
  intro p hp n hn
  obtain rfl := List.mem_singleton.1 hp
  exact List.all_eq_true.1 (hnames n hn)

theorem synthesize_shapes : synthesize {} [shapePlan] = .ok [shapeBuilder, shapeImpl] := by
  have hcheck : Parameter.checkAll shapePlan.builder.params = .ok () := by decide
  rw [synthesize, Plan.files_eq, hcheck]
  rfl

def shapeTree : FileTree where
  entries := [
    (["out"], .directory),
    (["out", "me"], .directory),
    (["out", "me", "builder"], .directory),
    (["out", "me", "builder", "ShapeBuilder.java"], .file shapeBuilder.content.toUTF8),
    (["out", "me", "builder", "ShapeImpl.java"], .file shapeImpl.content.toUTF8)]

theorem closed_shapeTree : shapeTree.Closed := by
  refine FileTree.closed_of_entries ?_
  simp only [shapeTree, List.forall_mem_cons]
  exact ⟨rfl, rfl, rfl, rfl, rfl, List.forall_mem_nil _⟩

theorem generate_shapes : ∃ t', generate FileTree.access {} [shapePlan] "out" false {} =
    (.ok (.onDisk "out" [(shapeBuilder, .written), (shapeImpl, .written)]), t') := by
  have hread : FileTree.read {} (shapeBuilder.pathBelow "out") = .error .notFound := by
    decide
  obtain ⟨t₁, hwrite, hread', hstored⟩ : ∃ t₁,
      FileTree.write {} (shapeBuilder.pathBelow "out") shapeBuilder.content.toUTF8 =
        (t₁, .ok ()) ∧
      t₁.read (shapeImpl.pathBelow "out") = .error .notFound ∧
      (t₁.write (shapeImpl.pathBelow "out") shapeImpl.content.toUTF8).2 = .ok () :=
    ⟨_, Prod.ext rfl (by decide +kernel), by decide +kernel, by decide +kernel⟩
  have hfirst : shapeBuilder.write FileTree.access "out" {} = (.ok .written, t₁) :=
    SourceFile.write_of_not_read (by rw [hread]; nofun) hwrite
  obtain ⟨t₂, hwrite'⟩ : ∃ t₂,
      t₁.write (shapeImpl.pathBelow "out") shapeImpl.content.toUTF8 = (t₂, .ok ()) :=
    ⟨_, Prod.ext rfl hstored⟩
  have hsecond : shapeImpl.write FileTree.access "out" t₁ = (.ok .written, t₂) :=
    SourceFile.write_of_not_read (by rw [hread']; nofun) hwrite'
  exact ⟨_, (generate_eq_ok_iff synthesize_shapes).2 ⟨_, writeAll_cons_eq_ok_iff.2
    ⟨_, _, _, hfirst, writeAll_cons_eq_ok_iff.2 ⟨_, _, _, hsecond, writeAll_nil, rfl⟩, rfl⟩, rfl⟩⟩

theorem shapes_written :
    shapes.plans = .ok [shapePlan] ∧
      (∀ p ∈ [shapePlan], ∀ n ∈ p.classNames, ClassName.WellFormed n) ∧
      generate FileTree.access {} [shapePlan] "out" true {} =
        (.ok (.preview [shapeBuilder, shapeImpl]), {}) ∧
      ∃ t', generate FileTree.access {} [shapePlan] "out" false {} =
          (.ok (.onDisk "out" [(shapeBuilder, .written), (shapeImpl, .written)]), t') ∧
        t'.read (shapeImpl.pathBelow "out") = .ok shapeImpl.content ∧
        generate FileTree.access {} [shapePlan] "out" false t' =
          (.ok (.onDisk "out" [(shapeBuilder, .unchanged), (shapeImpl, .unchanged)]), t') := by
  obtain ⟨-, hall⟩ := writing_is_exact {} plans_shapes wellFormed_shapes "out" {}
  obtain ⟨files, hfiles, hpreview, hrun⟩ :=
    hall ((synthesize_isOk_iff {} [shapePlan]).1 ⟨_, synthesize_shapes⟩)
  obtain rfl := Except.ok.inj (synthesize_shapes.symm.trans hfiles)
  obtain ⟨t', hgenerate⟩ := generate_shapes
  obtain ⟨results, -, hexact, hagain⟩ := hrun _ _ hgenerate
  exact ⟨plans_shapes, wellFormed_shapes, hpreview, t', hgenerate,
    hexact.read shapeImpl (by simp), hagain⟩

theorem shapes_by_missing_directory :
    shapes.plans = .ok [shapePlan] ∧
      (∀ p ∈ [shapePlan], ∀ n ∈ p.classNames, ClassName.WellFormed n) ∧ shapeTree.Closed ∧
      ∃ results t',
        generate FileTree.access {} [shapePlan] "x/../out" false shapeTree =
          (.ok (.onDisk "x/../out" results), t') ∧
        results = [(shapeBuilder, .written), (shapeImpl, .unchanged)] ∧
        (¬∀ f r, (f, r) ∈ results → (r = .written ↔
          shapeTree.entry? (f.placeBelow "x/../out") ≠ some (.file f.content.toUTF8))) ∧
        ¬∀ f r, (f, r) ∈ results → (r = .written ↔
          shapeTree.read (f.pathBelow "x/../out") ≠ .ok f.content) := by
  have hbuilder : shapeTree.read (shapeBuilder.pathBelow "x/../out") = .error .notFound := by
    decide
  have himpl : shapeTree.read (shapeImpl.pathBelow "x/../out") = .error .notFound := by
    decide
  have hplace : shapeBuilder.placeBelow "x/../out" =
      ["out", "me", "builder", "ShapeBuilder.java"] := by decide
  have hplace' : shapeImpl.placeBelow "x/../out" =
      ["out", "me", "builder", "ShapeImpl.java"] := by decide
  obtain ⟨t₁, hwrite, hfollow⟩ : ∃ t₁,
      shapeTree.write (shapeBuilder.pathBelow "x/../out") shapeBuilder.content.toUTF8 =
        (t₁, .ok ()) ∧
      t₁.follow [] (FileTree.components (shapeImpl.pathBelow "x/../out")) =
        .ok (shapeImpl.placeBelow "x/../out") :=
    ⟨_, Prod.ext rfl (by decide +kernel), by decide +kernel⟩
  have hfirst : shapeBuilder.write FileTree.access "x/../out" shapeTree = (.ok .written, t₁) :=
    SourceFile.write_of_not_read (by rw [hbuilder]; nofun) hwrite
  have hsecond : t₁.read (shapeImpl.pathBelow "x/../out") = .ok shapeImpl.content := by
    refine FileTree.read_eq_ok_iff.2 ⟨by decide, hfollow, ?_⟩
    refine ((FileTree.extends_write hwrite).file_iff ?_ _).2 ?_
    · change shapeImpl.placeBelow "x/../out" ∉ [shapeBuilder.placeBelow "x/../out"]
      rw [hplace, hplace']
      decide
    · change shapeTree.entry? (shapeImpl.placeBelow "x/../out") = _
      rw [hplace']
      rfl
  refine ⟨plans_shapes, wellFormed_shapes, closed_shapeTree, _, t₁,
    (generate_eq_ok_iff synthesize_shapes).2 ⟨_, writeAll_cons_eq_ok_iff.2 ⟨_, _, _, hfirst,
      writeAll_cons_eq_ok_iff.2 ⟨_, _, _, SourceFile.write_of_read hsecond, writeAll_nil, rfl⟩,
      rfl⟩, rfl⟩, rfl, ?_, ?_⟩
  · intro h
    refine (h shapeBuilder .written List.mem_cons_self).1 rfl ?_
    rw [hplace]
    rfl
  · intro h
    have := (h shapeImpl .unchanged (by simp)).2 (by rw [himpl]; nofun)
    cases this

end Shapes

end StagedBuilder
