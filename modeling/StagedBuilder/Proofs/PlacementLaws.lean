import Mathlib.Data.List.DropRight
import Mathlib.Data.List.ModifyLast
import StagedBuilder.Proofs.WritingLaws

namespace StagedBuilder

open ClassName (Placeable parts front sourcePath)

namespace FileTree

variable {t t' t'' : FileTree} {location l cs rest names : List String} {path file : String}
  {content : ByteArray}

section Following

theorem follow_append (t : FileTree) (location cs rest : List String) :
    t.follow location (cs ++ rest) =
      (t.follow location cs).bind fun location => t.follow location rest := by
  induction cs generalizing location with
  | nil => rfl
  | cons c cs ih =>
    rw [List.cons_append, follow_cons, follow_cons]
    cases t.entry? location with
    | none => rfl
    | some e =>
      cases e with
      | file content => rfl
      | directory => exact ih _

theorem follow_append_of_ok (h : t.follow location cs = .ok l) (rest : List String) :
    t.follow location (cs ++ rest) = t.follow l rest := by
  rw [follow_append, h]
  rfl

theorem follow_of_append (h : t.follow location (cs ++ rest) = .ok l) :
    t.follow location cs = .ok (cs.foldl enter location) := by
  refine follow_eq_ok_iff.2 ⟨rfl, ?_⟩
  rintro before c after rfl
  exact (follow_eq_ok_iff.1 h).2 before c (after ++ rest) (by simp)

/-- Components that lead nowhere can be left out. -/
theorem follow_filter (h : t.follow location cs = .ok l) :
    t.follow location (cs.filter fun c => c ≠ "" ∧ c ≠ ".") = .ok l := by
  induction cs generalizing location with
  | nil => exact h
  | cons c cs ih =>
    rw [follow_cons] at h
    cases he : t.entry? location with
    | none => simp [he] at h
    | some e =>
      cases e with
      | file content => simp [he] at h
      | directory =>
        rw [he] at h
        by_cases hc : c = "" ∨ c = "."
        · rw [List.filter_cons_of_neg (by simpa [or_iff_not_imp_left] using hc)]
          rw [enter, if_pos hc] at h
          exact ih h
        · rw [List.filter_cons_of_pos (by simpa [not_or] using hc), follow_cons, he]
          exact ih h

theorem follow_names (hnames : ∀ n ∈ names, IsEntryName n)
    (hfree : ∀ ds, ds <+: names → ∀ content, t.entry? (location ++ ds) ≠ some (.file content)) :
    t.follow location names = .ok (location ++ names) ∨
      t.follow location names = .error .notFound := by
  induction names generalizing location with
  | nil => exact .inl (by rw [follow, List.append_nil])
  | cons n names ih =>
    obtain ⟨hn, hnames⟩ := List.forall_mem_cons.1 hnames
    rw [follow_cons]
    cases he : t.entry? location with
    | none => exact .inr rfl
    | some e =>
      cases e with
      | file content =>
        refine absurd he ?_
        simpa using hfree [] List.nil_prefix content
      | directory =>
        have hbelow : ∀ ds, ds <+: names →
            ∀ content, t.entry? (location ++ [n] ++ ds) ≠ some (.file content) := fun ds hds => by
          simpa using hfree (n :: ds) (List.cons_prefix_cons.2 ⟨rfl, hds⟩)
        simpa [hn.enter] using ih hnames hbelow

end Following

def LaidOut (t : FileTree) (location names : List String) (t' : FileTree) : Prop :=
  ∀ l, t'.entry? (location ++ l) =
    if l <+: names then some .directory else t.entry? (location ++ l)

section Making

variable {n : String}

theorem laidOut_of_follow (hnames : ∀ n ∈ names, IsEntryName n)
    (h : t.follow location (names ++ [n]) = .ok l) : LaidOut t location names t := by
  intro l
  split_ifs with hl
  · obtain ⟨rest, rfl⟩ := hl
    obtain ⟨c, after, hrest⟩ := List.exists_cons_of_ne_nil (List.concat_ne_nil n rest)
    rw [← IsEntryName.foldl_enter (List.forall_mem_append.1 hnames).1]
    refine (follow_eq_ok_iff.1 h).2 l c after ?_
    rw [List.append_assoc, ← hrest]
  · rfl

theorem LaidOut.follow (h : LaidOut t location names t')
    (hnames : ∀ m ∈ names ++ [n], IsEntryName m) :
    t'.follow location (names ++ [n]) = .ok (location ++ (names ++ [n])) := by
  refine follow_eq_ok_iff.2 ⟨IsEntryName.foldl_enter hnames location, ?_⟩
  intro before c after heq
  have hbefore : before <+: names := by
    rcases List.prefix_concat_iff.1 ⟨c :: after, heq.symm⟩ with rfl | hbefore
    · simp at heq
    · exact hbefore
  have hentries : ∀ m ∈ before, IsEntryName m := fun m hm =>
    hnames m (List.mem_append_left _ (hbefore.subset hm))
  rw [IsEntryName.foldl_enter hentries, h, if_pos hbefore]

theorem makeDirectory_of_follow (h : t.follow [] cs = .ok l)
    (hfree : ∀ content, t.entry? l ≠ some (.file content)) :
    ∃ t', t.makeDirectory cs = .ok t' ∧
      ∀ x, t'.entry? x = if x = l then some .directory else t.entry? x := by
  simp only [makeDirectory, h, bind, Except.bind]
  cases he : t.entry? l with
  | none =>
    have hroot : l ≠ [] := ne_root (by rw [he]; nofun)
    exact ⟨_, rfl, t.entry?_put hroot .directory⟩
  | some e =>
    cases e with
    | file content => exact absurd he (hfree content)
    | directory =>
      refine ⟨t, rfl, fun x => ?_⟩
      split_ifs with hx
      · rw [hx, he]
      · rfl

theorem LaidOut.makeDirectory (h : LaidOut t location names t')
    (hfollow : t'.follow [] cs = .ok (location ++ (names ++ [n])))
    (hfree : ∀ content, t.entry? (location ++ (names ++ [n])) ≠ some (.file content)) :
    ∃ t'', t'.makeDirectory cs = .ok t'' ∧ LaidOut t location (names ++ [n]) t'' := by
  have hfree' (content) : t'.entry? (location ++ (names ++ [n])) ≠ some (.file content) := by
    rw [h]
    split_ifs
    · nofun
    · exact hfree content
  obtain ⟨t'', hmake, hentry⟩ := makeDirectory_of_follow hfollow hfree'
  refine ⟨t'', hmake, fun l => ?_⟩
  rw [hentry, h]
  simp only [List.append_cancel_left_eq, List.prefix_concat_iff]
  split_ifs <;> tauto

theorem makeDirectories_of_ok (h : t.makeDirectory cs = .ok t') :
    t.makeDirectories cs.reverse = (t', .ok ()) := by
  cases hcs : cs.reverse with
  | nil =>
    obtain rfl := List.reverse_eq_nil_iff.1 hcs
    obtain rfl := Except.ok.inj h
    rfl
  | cons c above => rw [makeDirectories, ← hcs, List.reverse_reverse, h]

theorem makeDirectories_of_notFound (h : t.makeDirectory (cs ++ [n]) = .error .notFound)
    (habove : t.makeDirectories cs.reverse = (t', .ok ()))
    (hmake : t'.makeDirectory (cs ++ [n]) = .ok t'') :
    t.makeDirectories (cs ++ [n]).reverse = (t'', .ok ()) := by
  have hcs : (n :: cs.reverse).reverse = cs ++ [n] := by simp
  rw [List.reverse_concat, makeDirectories, hcs, h]
  simp only [habove, hmake]

theorem makeDirectories_below (hcs : t.follow [] cs = .ok location)
    (hdirectory : t.entry? location = some .directory) (hnames : ∀ n ∈ names, IsEntryName n)
    (hfree : ∀ ds, ds <+: names → ∀ content, t.entry? (location ++ ds) ≠ some (.file content)) :
    ∃ t', t.makeDirectories (cs ++ names).reverse = (t', .ok ()) ∧ LaidOut t location names t' := by
  induction names using List.reverseRecOn with
  | nil =>
    obtain ⟨t', hmake, hentry⟩ := makeDirectory_of_follow hcs (by rw [hdirectory]; nofun)
    refine ⟨t', makeDirectories_of_ok (by rwa [List.append_nil]), fun l => ?_⟩
    simp [hentry, List.prefix_nil]
  | append_singleton names n ih =>
    have hnames' := (List.forall_mem_append.1 hnames).1
    have hreach {t₁ : FileTree} (h : t₁.follow [] cs = .ok location) :
        t₁.follow [] (cs ++ names ++ [n]) = t₁.follow location (names ++ [n]) := by
      rw [List.append_assoc]
      exact follow_append_of_ok h _
    rw [← List.append_assoc]
    rcases follow_names hnames hfree with hfollow | hmissing
    · obtain ⟨t', hmake, hlaid⟩ := (laidOut_of_follow hnames' hfollow).makeDirectory
        ((hreach hcs).trans hfollow) (hfree _ List.prefix_rfl)
      exact ⟨t', makeDirectories_of_ok hmake, hlaid⟩
    · obtain ⟨t₁, habove, hlaid₁⟩ :=
        ih hnames' fun ds hds => hfree ds (hds.trans (List.prefix_append _ _))
      have hextends := t.extends_makeDirectories (cs ++ names).reverse
      rw [habove] at hextends
      obtain ⟨t', hmake, hlaid⟩ := hlaid₁.makeDirectory
        ((hreach (hextends.follow hcs)).trans (hlaid₁.follow hnames)) (hfree _ List.prefix_rfl)
      have hfails : t.makeDirectory (cs ++ names ++ [n]) = .error .notFound := by
        simp only [makeDirectory, hreach hcs, hmissing, bind, Except.bind]
      exact ⟨t', makeDirectories_of_notFound hfails habove hmake, hlaid⟩

theorem store_of_follow (h : t.follow [] (components path) = .ok l)
    (hl : t.entry? l ≠ some .directory) :
    t.store path content = .ok (t.put l (.file content)) := by
  simp only [store, h, bind, Except.bind]

theorem write_below (hpath : components path = cs ++ (names ++ [file]))
    (hcs : t.follow [] cs = .ok location) (hdirectory : t.entry? location = some .directory)
    (hnames : ∀ n ∈ names ++ [file], IsEntryName n)
    (hfree : ∀ ds, ds <+: names → ∀ content, t.entry? (location ++ ds) ≠ some (.file content))
    (hplace : t.entry? (location ++ (names ++ [file])) ≠ some .directory) (content : ByteArray) :
    ∃ t', t.write path content = (t', .ok ()) ∧
      ∀ l, t'.entry? (location ++ l) =
        if l = names ++ [file] then some (.file content)
        else if l <+: names then some .directory
        else t.entry? (location ++ l) := by
  obtain ⟨hnames', -⟩ := List.forall_mem_append.1 hnames
  have hdirectories : directories path = (cs.filter fun c => c ≠ "" ∧ c ≠ ".") ++ names := by
    have hkept : names.filter (fun c => c ≠ "" ∧ c ≠ ".") = names :=
      List.filter_eq_self.2 fun n hn =>
        decide_eq_true ⟨(hnames' n hn).ne_empty, (hnames' n hn).ne_dot⟩
    rw [directories, hpath, ← List.append_assoc, List.dropLast_concat, List.filter_append, hkept]
  obtain ⟨t₁, hmake, hlaid⟩ :=
    makeDirectories_below (follow_filter hcs) hdirectory hnames' hfree
  have hextends := t.extends_makeDirectories (directories path).reverse
  rw [hdirectories, hmake] at hextends
  have hfollow : t₁.follow [] (components path) = .ok (location ++ (names ++ [file])) := by
    rw [hpath, follow_append_of_ok (hextends.follow hcs), hlaid.follow hnames]
  have hlonger : ¬names ++ [file] <+: names := fun h => absurd h.length_le (by simp)
  have hplace₁ : t₁.entry? (location ++ (names ++ [file])) ≠ some .directory := by
    rwa [hlaid, if_neg hlonger]
  have hroot : location ++ (names ++ [file]) ≠ [] := by simp
  refine ⟨t₁.put (location ++ (names ++ [file])) (.file content), ?_, fun l => ?_⟩
  · rw [write, hdirectories, hmake]
    simp only [store_of_follow hfollow hplace₁]
  · rw [entry?_put hroot, hlaid]
    simp only [List.append_cancel_left_eq]

end Making

end FileTree

namespace ClassName

variable {name other : String}

def withoutExtension (file : String) : String := .ofList (file.toList.rdrop ".java".toList.length)

def ofPath (path : String) : String :=
  ".".intercalate ((FileTree.components path).modifyLast withoutExtension)

theorem withoutExtension_java (name : String) : withoutExtension (name ++ ".java") = name := by
  rw [withoutExtension, String.toList_append, List.rdrop_append_length, String.ofList_toList]

theorem intercalate_segments (name : String) : ".".intercalate (segments name) = name := by
  rw [← String.toList_inj, String.toList_intercalate, segments_eq, List.map_map]
  have hsegments : (name.toList.splitOn '.').map (String.toList ∘ String.ofList) =
      name.toList.splitOn '.' := by simp [Function.comp_def]
  rw [hsegments]
  exact List.intercalate_splitOn '.'

theorem ofPath_sourcePath (h : Placeable name) : ofPath (sourcePath name) = name := by
  rw [ofPath, h.components_sourcePath, parts, List.modifyLast_concat, withoutExtension_java,
    ← h.segments_eq, intercalate_segments]

theorem parts_eq (name : String) :
    (parts name).dropLast ++ [simple name ++ ".java"] = parts name := by
  rw [parts, List.dropLast_concat]

namespace Placeable

theorem dot_not_mem_dropLast (h : Placeable name) :
    ∀ n ∈ (parts name).dropLast, '.' ∉ n.toList := by
  rw [parts, List.dropLast_concat]
  intro n hn
  exact dot_not_mem_segments name n (h.segments_eq ▸ List.mem_append_left _ hn)

theorem not_prefix_dropLast (h : Placeable other) : ¬parts name <+: (parts other).dropLast := by
  intro hbelow
  have hfile : simple name ++ ".java" ∈ parts name := by simp [parts]
  exact h.dot_not_mem_dropLast _ (hbelow.subset hfile) (by simp)

theorem eq_of_below (h : Placeable name) (h' : Placeable other)
    (hbelow : parts name <+: parts other) : name = other := by
  rw [← parts_eq other] at hbelow
  rcases List.prefix_concat_iff.1 hbelow with heq | hbelow
  · exact h.eq_of_parts h' (heq.trans (parts_eq other))
  · exact absurd hbelow h'.not_prefix_dropLast

end Placeable

theorem components_eq_front (base : String) :
    FileTree.components base = front base ∨ FileTree.components base = front base ++ [""] := by
  unfold front
  split_ifs with hend
  · have hcomponents : FileTree.components (step base "") = front base ++ FileTree.components "" :=
      components_step (by decide)
    rw [step, if_neg (by decide), if_pos hend, String.append_empty, front,
      if_pos hend] at hcomponents
    exact .inr hcomponents
  · exact .inl rfl

end ClassName

namespace FileTree

variable {t t' : FileTree} {base : String} {files done : List SourceFile} {f : SourceFile}

structure IsEmptyDirectory (t : FileTree) (base : String) : Prop where
  reached : t.follow [] (components base) = .ok (place base)
  directory : t.entry? (place base) = some .directory
  nothing : ∀ l ≠ [], t.entry? (place base ++ l) = none

/-- Below the directory there are these files, in their directories, and nothing else. -/
structure Holds (t : FileTree) (base : String) (files : List SourceFile) : Prop where
  reached : t.follow [] (components base) = .ok (place base)
  file_iff : ∀ l content, t.entry? (place base ++ l) = some (.file content) ↔
    ∃ f ∈ files, components f.path = l ∧ f.content.toUTF8 = content
  directory_iff : ∀ l, t.entry? (place base ++ l) = some .directory ↔
    l = [] ∨ ∃ f ∈ files, l <+: (components f.path).dropLast

theorem IsEmptyDirectory.holds (h : t.IsEmptyDirectory base) : t.Holds base [] where
  reached := h.reached
  file_iff l content := by
    by_cases hl : l = []
    · simp [hl, h.directory]
    · simp [h.nothing l hl]
  directory_iff l := by
    by_cases hl : l = []
    · simp [hl, h.directory]
    · simp [h.nothing l hl, hl]

namespace Holds

theorem follow_front (h : t.Holds base files) : t.follow [] (front base) = .ok (place base) := by
  have hreached := h.reached
  rcases ClassName.components_eq_front base with hbase | hbase
  · rwa [hbase] at hreached
  · have hplace : place base = (front base).foldl enter [] := by
      rw [place, hbase, List.foldl_append]
      rfl
    rw [hbase] at hreached
    rw [hplace]
    exact follow_of_append hreached

theorem place_pathBelow (h : t.Holds base files) (hf : Placeable f.className) :
    f.placeBelow base = place base ++ parts f.className := by
  have hplace := (follow_eq_ok_iff.1 h.follow_front).1
  rw [SourceFile.placeBelow, SourceFile.pathBelow, SourceFile.path, hf.place_below, hplace]

theorem read (h : t.Holds base files) (hf : f ∈ files) (hname : Placeable f.className) :
    t.read (f.pathBelow base) = .ok f.content := by
  have hpath := hname.components_sourcePath
  have hlaid : LaidOut t (place base) (parts f.className).dropLast t := by
    intro l
    split_ifs with hl
    · exact (h.directory_iff l).2 (.inr ⟨f, hf, hpath ▸ hl⟩)
    · rfl
  have hentry := (h.file_iff (parts f.className) _).2 ⟨f, hf, hpath, rfl⟩
  have hnames := hname.isEntryName
  rw [← ClassName.parts_eq] at hnames
  have hfollow := hlaid.follow hnames
  rw [ClassName.parts_eq, ← h.place_pathBelow hname] at hfollow
  rw [← h.place_pathBelow hname] at hentry
  refine read_eq_ok_iff.2 ⟨?_, ?_, hentry⟩
  · intro hempty
    have hroot : f.placeBelow base = [] := by
      rw [SourceFile.placeBelow, hempty]
      rfl
    rw [hroot, entry?_root] at hentry
    cases hentry
  · rw [SourceFile.pathBelow, SourceFile.path, hname.components_below,
      follow_append_of_ok h.follow_front]
    exact hfollow

section Adding

variable (hdone : ∀ g ∈ done, Placeable g.className) (hf : Placeable f.className)
  (hnew : f.className ∉ done.map (·.className))

include hdone hf hnew

theorem vacant (h : t.Holds base done) : t.entry? (place base ++ parts f.className) = none := by
  have hother {g : SourceFile} (hg : g ∈ done) : ¬parts f.className <+: components g.path := by
    intro hbelow
    rw [SourceFile.path, (hdone g hg).components_sourcePath] at hbelow
    exact hnew (hf.eq_of_below (hdone g hg) hbelow ▸ List.mem_map_of_mem hg)
  cases he : t.entry? (place base ++ parts f.className) with
  | none => rfl
  | some e =>
    cases e with
    | file content =>
      obtain ⟨g, hg, heq, -⟩ := (h.file_iff _ _).1 he
      exact absurd ⟨[], by rw [List.append_nil, heq]⟩ (hother hg)
    | directory =>
      rcases (h.directory_iff _).1 he with hroot | ⟨g, hg, hbelow⟩
      · simp [parts] at hroot
      · exact absurd (hbelow.trans (List.dropLast_prefix _)) (hother hg)

theorem free (h : t.Holds base done) (l : List String)
    (hl : l <+: (parts f.className).dropLast) (content : ByteArray) :
    t.entry? (place base ++ l) ≠ some (.file content) := by
  intro he
  obtain ⟨g, hg, rfl, -⟩ := (h.file_iff _ _).1 he
  rw [SourceFile.path, (hdone g hg).components_sourcePath] at hl
  have heq := (hdone g hg).eq_of_below hf (hl.trans (List.dropLast_prefix _))
  exact hnew (heq ▸ List.mem_map_of_mem hg)

theorem add (h : t.Holds base done) (hreached : t'.follow [] (components base) = .ok (place base))
    (hentry : ∀ l, t'.entry? (place base ++ l) =
      if l = parts f.className then some (.file f.content.toUTF8)
      else if l <+: (parts f.className).dropLast then some .directory
      else t.entry? (place base ++ l)) :
    t'.Holds base (done ++ [f]) := by
  have hpath := hf.components_sourcePath
  have hvacant := h.vacant hdone hf hnew
  refine ⟨hreached, fun l content => ?_, fun l => ?_⟩
  · have hadded : (∃ g ∈ done ++ [f], components g.path = l ∧ g.content.toUTF8 = content) ↔
        t.entry? (place base ++ l) = some (.file content) ∨
          parts f.className = l ∧ f.content.toUTF8 = content := by
      simp [h.file_iff, or_and_right, exists_or, SourceFile.path, hpath]
    rw [hentry, hadded]
    split_ifs with hl hdirectory
    · simp [hl, hvacant]
    · simp [h.free hdone hf hnew l hdirectory content, Ne.symm hl]
    · simp [Ne.symm hl]
  · have hadded : (l = [] ∨ ∃ g ∈ done ++ [f], l <+: (components g.path).dropLast) ↔
        t.entry? (place base ++ l) = some .directory ∨ l <+: (parts f.className).dropLast := by
      simp [h.directory_iff, or_and_right, exists_or, SourceFile.path, hpath, or_assoc]
    rw [hentry, hadded]
    split_ifs with hl hdirectory
    · simp [hl, hvacant, hf.not_prefix_dropLast]
    · simp [hdirectory]
    · simp [hdirectory]

theorem write (h : t.Holds base done) :
    ∃ t', f.write access base t = (.ok .written, t') ∧ t'.Holds base (done ++ [f]) := by
  have hvacant := h.vacant hdone hf hnew
  have hread : t.read (f.pathBelow base) ≠ .ok f.content := by
    intro hread
    obtain ⟨-, -, hentry⟩ := read_eq_ok_iff.1 hread
    have hplace := h.place_pathBelow hf
    rw [SourceFile.placeBelow] at hplace
    rw [hplace, hvacant] at hentry
    cases hentry
  have hplace : t.entry? (place base ++ parts f.className) ≠ some .directory := by
    rw [hvacant]
    exact (Option.some_ne_none _).symm
  have hdirectory : t.entry? (place base) = some .directory := by
    simpa using (h.directory_iff []).2 (.inl rfl)
  have hcomponents := hf.components_below base
  have hnames := hf.isEntryName
  rw [← ClassName.parts_eq f.className] at hcomponents hnames hplace
  obtain ⟨t', hwrite, hentry⟩ := write_below hcomponents h.follow_front hdirectory hnames
    (h.free hdone hf hnew) hplace f.content.toUTF8
  rw [ClassName.parts_eq] at hentry
  exact ⟨t', SourceFile.write_of_not_read hread hwrite,
    h.add hdone hf hnew ((extends_write hwrite).follow h.reached) hentry⟩

end Adding

end Holds

end FileTree

section Runs

variable {t : FileTree} {base : String} {done files : List SourceFile}

theorem writeAll_beside (h : t.Holds base done)
    (hnames : ∀ f ∈ done ++ files, Placeable f.className)
    (hdistinct : ((done ++ files).map (·.className)).Nodup) :
    ∃ t', writeAll FileTree.access base files t = (.ok (files.map (·, .written)), t') ∧
      t'.Holds base (done ++ files) := by
  induction files generalizing t done with
  | nil => exact ⟨t, writeAll_nil, by rwa [List.append_nil]⟩
  | cons f files ih =>
    have hnew : f.className ∉ done.map (·.className) := by
      rw [List.map_append, List.map_cons, List.nodup_append'] at hdistinct
      exact fun hmem => hdistinct.2.2 hmem List.mem_cons_self
    have hcons : done ++ f :: files = done ++ [f] ++ files := by
      rw [List.append_assoc, List.singleton_append]
    obtain ⟨hdone, hrest⟩ := List.forall_mem_append.1 hnames
    obtain ⟨t₁, hwritten, h₁⟩ := h.write hdone (hrest f List.mem_cons_self) hnew
    obtain ⟨t', hrun, h'⟩ := ih h₁ (hcons ▸ hnames) (hcons ▸ hdistinct)
    exact ⟨t', writeAll_cons_eq_ok_iff.2 ⟨_, _, _, hwritten, hrun, rfl⟩, hcons ▸ h'⟩

/--
A path is that of one class, whose name is read back from it, and it leads through no file of
another class. So below an empty directory any distinct classes can be written in any order, each of
them to a new file, and afterwards there is nothing else below it.
-/
theorem classes_side_by_side :
    (∀ name other, Placeable name → Placeable other →
      (sourcePath name = sourcePath other ↔ name = other) ∧
        (FileTree.components (sourcePath name) <+: FileTree.components (sourcePath other) →
          name = other)) ∧
    (∀ name, Placeable name → ClassName.ofPath (sourcePath name) = name) ∧
    ∀ (t : FileTree) base files, t.IsEmptyDirectory base →
      (∀ f ∈ files, Placeable f.className) → (files.map (·.className)).Nodup →
        ∃ t', writeAll FileTree.access base files t = (.ok (files.map (·, .written)), t') ∧
          t'.Holds base files ∧ ∀ f ∈ files, t'.read (f.pathBelow base) = .ok f.content := by
  refine ⟨fun name other h h' => ⟨⟨fun heq => ?_, congrArg sourcePath⟩, fun hbelow => ?_⟩,
    fun name h => ClassName.ofPath_sourcePath h, fun t base files hempty hnames hdistinct => ?_⟩
  · rw [← ClassName.ofPath_sourcePath h, heq, ClassName.ofPath_sourcePath h']
  · rw [h.components_sourcePath, h'.components_sourcePath] at hbelow
    exact h.eq_of_below h' hbelow
  · obtain ⟨t', hrun, h'⟩ := writeAll_beside hempty.holds hnames hdistinct
    exact ⟨t', hrun, h', fun f hf => h'.read hf (hnames f hf)⟩

def sides : List SourceFile := [⟨"me.Shape", "1"⟩, ⟨"me.Shape.Side", "2"⟩, ⟨"Shape", "3"⟩]

def emptyOut : FileTree := ⟨[(["out"], .directory)]⟩

theorem isEmptyDirectory_out : emptyOut.IsEmptyDirectory "out" where
  reached := by decide
  directory := rfl
  nothing l hl := by
    obtain ⟨n, names, rfl⟩ := List.exists_cons_of_ne_nil hl
    rfl

theorem wellFormed_sides : ∀ f ∈ sides, ClassName.WellFormed f.className := by
  have hnames : ∀ f ∈ sides, (ClassName.segments f.className).all isIdentifier = true := by
    simp only [sides, List.forall_mem_cons]
    decide
  exact fun f hf => List.all_eq_true.1 (hnames f hf)

theorem sides_written :
    emptyOut.IsEmptyDirectory "out" ∧ (∀ f ∈ sides, Placeable f.className) ∧
      (sides.map (·.className)).Nodup ∧
      (¬FileTree.components (sourcePath "me.Shape") <+:
        FileTree.components (sourcePath "me.Shape.Side")) ∧
      ClassName.ofPath (sourcePath "me.Shape.Side") = "me.Shape.Side" ∧
      ∃ t', writeAll FileTree.access "out" sides emptyOut =
          (.ok (sides.map (·, .written)), t') ∧
        t'.read "out/me/Shape.java" = .ok "1" ∧ t'.read "out/me/Shape/Side.java" = .ok "2" := by
  have hnames : ∀ f ∈ sides, Placeable f.className := fun f hf =>
    (wellFormed_sides f hf).spelled.placeable
  have hdistinct : (sides.map (·.className)).Nodup := by decide
  have hshape : Placeable "me.Shape" := hnames ⟨"me.Shape", "1"⟩ (by decide)
  have hside : Placeable "me.Shape.Side" := hnames ⟨"me.Shape.Side", "2"⟩ (by decide)
  obtain ⟨hpaths, hback, hruns⟩ := classes_side_by_side
  have hbelow := mt (hpaths _ _ hshape hside).2 (by decide)
  obtain ⟨t', hrun, -, hread⟩ := hruns emptyOut "out" sides isEmptyDirectory_out hnames hdistinct
  refine ⟨isEmptyDirectory_out, hnames, hdistinct, hbelow, hback _ hside, t', hrun, ?_, ?_⟩
  · exact hread ⟨"me.Shape", "1"⟩ (by decide)
  · exact hread ⟨"me.Shape.Side", "2"⟩ (by decide)

end Runs

end StagedBuilder
