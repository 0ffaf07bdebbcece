import Mathlib.Data.List.Induction
import StagedBuilder.FileTree

namespace StagedBuilder.FileTree

variable {t t' t'' : FileTree} {location l : List String} {places others : List (List String)}
  {path : String} {cs : List String}

def enter (location : List String) (c : String) : List String :=
  if c = "" ∨ c = "." then location
  else if c = ".." then location.dropLast
  else location ++ [c]

def place (path : String) : List String := (components path).foldl enter []

def Closed (t : FileTree) : Prop :=
  ∀ location c e, t.entry? (location ++ [c]) = some e → t.entry? location = some .directory

/-- Each `..` of the path leaves a directory that exists. -/
def BacksOut (t : FileTree) (path : String) : Prop :=
  ∀ before after, components path = before ++ ".." :: after →
    t.entry? (before.foldl enter []) = some .directory

/-- What was there is kept, but for the files at `places`, and only directories are added. -/
structure Extends (places : List (List String)) (t t' : FileTree) : Prop where
  directories : ∀ l, t.entry? l = some .directory → t'.entry? l = some .directory
  others : ∀ l ∉ places,
    t'.entry? l = t.entry? l ∨ t.entry? l = none ∧ t'.entry? l = some .directory

@[simp] theorem entry?_root (t : FileTree) : t.entry? [] = some .directory := if_pos rfl

theorem ne_root (h : t.entry? l ≠ some .directory) : l ≠ [] := by
  rintro rfl
  exact h t.entry?_root

section Following

theorem follow_cons (t : FileTree) (location : List String) (c : String) (cs : List String) :
    t.follow location (c :: cs) =
      match t.entry? location with
      | none => .error .notFound
      | some (.file _) => .error .notADirectory
      | some .directory => t.follow (enter location c) cs := by
  rw [follow]
  cases t.entry? location with
  | none => rfl
  | some e =>
    cases e with
    | file content => rfl
    | directory =>
      unfold enter
      split_ifs <;> rfl

theorem follow_eq_ok_iff :
    t.follow location cs = .ok l ↔
      cs.foldl enter location = l ∧ ∀ before c after, cs = before ++ c :: after →
        t.entry? (before.foldl enter location) = some .directory := by
  induction cs generalizing location with
  | nil => simp [follow]
  | cons c cs ih =>
    have hcut : (∀ before c' after, c :: cs = before ++ c' :: after →
          t.entry? (before.foldl enter location) = some .directory) ↔
        t.entry? location = some .directory ∧ ∀ before c' after, cs = before ++ c' :: after →
          t.entry? (before.foldl enter (enter location c)) = some .directory := by
      refine ⟨fun h => ⟨h [] c cs rfl, ?_⟩, ?_⟩
      · rintro before c' after rfl
        exact h (c :: before) c' after rfl
      · rintro ⟨hhead, hrest⟩ before c' after heq
        cases before with
        | nil => exact hhead
        | cons b before =>
          obtain ⟨rfl, rfl⟩ := List.cons.inj heq
          exact hrest before c' after rfl
    rw [follow_cons, hcut, List.foldl_cons]
    cases he : t.entry? location with
    | none => simp
    | some e =>
      cases e with
      | directory => simp [ih]
      | file content => simp

theorem fromUTF8?_eq_some_iff {bytes : ByteArray} {s : String} :
    String.fromUTF8? bytes = some s ↔ bytes = s.toUTF8 := by
  unfold String.fromUTF8?
  split
  · rename_i hvalid
    rw [Option.some.injEq]
    refine ⟨?_, ?_⟩
    · rintro rfl
      rfl
    · rintro rfl
      rfl
  · rename_i hinvalid
    refine iff_of_false nofun ?_
    rintro rfl
    exact hinvalid s.isValidUTF8

theorem read_eq_ok_iff {s : String} :
    t.read path = .ok s ↔
      path ≠ "" ∧ t.follow [] (components path) = .ok (place path) ∧
        t.entry? (place path) = some (.file s.toUTF8) := by
  unfold read
  by_cases hpath : path = ""
  · simp [hpath, bind, Except.bind]
  · rw [if_neg hpath]
    cases hf : t.follow [] (components path) with
    | error e => simp [bind, Except.bind]
    | ok l =>
      obtain rfl : place path = l := (follow_eq_ok_iff.1 hf).1
      simp only [bind, Except.bind]
      cases he : t.entry? (place path) with
      | none => simp
      | some e =>
        cases e with
        | directory => simp
        | file content =>
          have hs := @fromUTF8?_eq_some_iff content s
          cases htext : String.fromUTF8? content <;> simp_all

end Following

section Closed

theorem closed_of_entries
    (h : ∀ x ∈ t.entries, t.entry? x.1.dropLast = some .directory) : t.Closed := by
  intro location c e he
  unfold entry? at he
  rw [if_neg (List.concat_ne_nil _ _)] at he
  obtain ⟨before, after, hentries, -⟩ := List.lookup_eq_some_iff.1 he
  simpa using h (location ++ [c], e) (by simp [hentries])

theorem Closed.directory (ht : t.Closed) (h : location <+: l)
    (hl : t.entry? l = some .directory) : t.entry? location = some .directory := by
  obtain ⟨names, rfl⟩ := h
  induction names using List.reverseRecOn with
  | nil => simpa using hl
  | append_singleton names name ih =>
    rw [← List.append_assoc] at hl
    exact ih (ht _ _ _ hl)

theorem prefix_foldl_enter (h : ".." ∉ cs) : location <+: cs.foldl enter location := by
  induction cs generalizing location with
  | nil => exact List.prefix_rfl
  | cons c cs ih =>
    rw [List.mem_cons, not_or] at h
    have hstep : location <+: enter location c := by
      unfold enter
      split_ifs with hc hdots
      · exact List.prefix_rfl
      · exact absurd hdots.symm h.1
      · exact List.prefix_append _ _
    exact hstep.trans (ih h.2)

theorem Closed.follow (ht : t.Closed) {name : String} {e : FileEntry}
    (hname : ∀ location, enter location name = location ++ [name])
    (hback : ∀ before after, cs = before ++ ".." :: after →
      t.entry? (before.foldl enter []) = some .directory)
    (he : t.entry? (cs.foldl enter [] ++ [name]) = some e) :
    t.follow [] (cs ++ [name]) = .ok (cs.foldl enter [] ++ [name]) := by
  have hlast : t.entry? (cs.foldl enter []) = some .directory := ht _ _ _ he
  refine follow_eq_ok_iff.2 ⟨by rw [List.foldl_append, List.foldl_cons, List.foldl_nil, hname], ?_⟩
  intro before c after hcs
  obtain ⟨rest, rfl⟩ : before <+: cs := by
    rcases List.prefix_concat_iff.1 ⟨c :: after, hcs.symm⟩ with rfl | hbefore
    · simp at hcs
    · exact hbefore
  by_cases hdots : ".." ∈ rest
  · obtain ⟨inner, outer, rfl, hinner⟩ := List.eq_append_cons_of_mem hdots
    have hleft := hback (before ++ inner) outer (by rw [List.append_assoc])
    rw [List.foldl_append] at hleft
    exact ht.directory (prefix_foldl_enter hinner) hleft
  · rw [List.foldl_append] at hlast
    exact ht.directory (prefix_foldl_enter hdots) hlast

end Closed

section Extension

theorem Extends.refl (places : List (List String)) (t : FileTree) : Extends places t t :=
  ⟨fun _ h => h, fun _ _ => .inl rfl⟩

theorem Extends.trans (h : Extends places t t') (h' : Extends others t' t'') :
    Extends (places ++ others) t t'' where
  directories l hl := h'.directories l (h.directories l hl)
  others l hl := by
    rw [List.mem_append, not_or] at hl
    rcases h.others l hl.1 with heq | ⟨hnone, hdir⟩
    · rw [← heq]
      exact h'.others l hl.2
    · exact .inr ⟨hnone, h'.directories l hdir⟩

theorem Extends.mono (h : Extends places t t') (hsubset : places ⊆ others) : Extends others t t' :=
  ⟨h.directories, fun l hl => h.others l fun hmem => hl (hsubset hmem)⟩

theorem Extends.file_iff (h : Extends places t t') (hl : l ∉ places) (content : ByteArray) :
    t'.entry? l = some (.file content) ↔ t.entry? l = some (.file content) := by
  rcases h.others l hl with heq | ⟨hnone, hdir⟩
  · rw [heq]
  · simp [hnone, hdir]

theorem Extends.follow (h : Extends places t t') (hl : t.follow location cs = .ok l) :
    t'.follow location cs = .ok l := by
  obtain ⟨heq, hdirs⟩ := follow_eq_ok_iff.1 hl
  exact follow_eq_ok_iff.2 ⟨heq, fun before c after hcs =>
    h.directories _ (hdirs before c after hcs)⟩

theorem Extends.read (h : Extends places t t') (hplace : place path ∉ places) {s : String}
    (hs : t.read path = .ok s) : t'.read path = .ok s := by
  obtain ⟨hpath, hfollow, hfile⟩ := read_eq_ok_iff.1 hs
  exact read_eq_ok_iff.2 ⟨hpath, h.follow hfollow, (h.file_iff hplace _).2 hfile⟩

theorem lookup_set (location l : List String) (e : FileEntry)
    (entries : List (List String × FileEntry)) :
    (set location e entries).lookup l = if l = location then some e else entries.lookup l := by
  induction entries with
  | nil =>
    rw [set, List.lookup_cons]
    by_cases hl : l = location
    · simp [hl]
    · rw [beq_eq_false_iff_ne.2 hl, if_neg hl]
  | cons entry entries ih =>
    obtain ⟨key, old⟩ := entry
    rw [set]
    by_cases hkey : key = location
    · subst hkey
      rw [if_pos rfl, List.lookup_cons, List.lookup_cons]
      by_cases hl : l = key
      · simp [hl]
      · rw [beq_eq_false_iff_ne.2 hl, if_neg hl]
    · rw [if_neg hkey, List.lookup_cons, List.lookup_cons, ih]
      by_cases hl : l = key
      · subst hl
        simp [hkey]
      · rw [beq_eq_false_iff_ne.2 hl]

theorem entry?_put (hroot : location ≠ []) (e : FileEntry) (l : List String) :
    FileTree.entry? (t.put location e) l = if l = location then some e else t.entry? l := by
  by_cases hl : l = []
  · subst hl
    rw [entry?_root, entry?_root, if_neg hroot.symm]
  · unfold entry?
    rw [if_neg hl, if_neg hl, put, lookup_set]

theorem extends_put_directory (h : t.entry? location = none) :
    Extends [] t (t.put location .directory) := by
  have hentry := t.entry?_put (ne_root (h ▸ nofun : t.entry? location ≠ some .directory)) .directory
  refine ⟨?_, ?_⟩
  · intro l hl
    rw [hentry]
    split_ifs
    · rfl
    · exact hl
  · intro l _
    rw [hentry]
    split_ifs with heq
    · exact .inr ⟨heq ▸ h, rfl⟩
    · exact .inl rfl

theorem extends_put_file (h : t.entry? location ≠ some .directory) (content : ByteArray) :
    Extends [location] t (t.put location (.file content)) := by
  have hentry := t.entry?_put (ne_root h) (.file content)
  refine ⟨?_, ?_⟩
  · intro l hl
    rw [hentry, if_neg fun heq : l = location => h (heq ▸ hl)]
    exact hl
  · intro l hl
    rw [hentry, if_neg (List.ne_of_not_mem_cons hl)]
    exact .inl rfl

end Extension

section Writing

theorem extends_of_makeDirectory (h : t.makeDirectory cs = .ok t') : Extends [] t t' := by
  unfold makeDirectory at h
  cases hf : t.follow [] cs with
  | error e =>
    rw [hf] at h
    exact nomatch h
  | ok l =>
    simp only [hf, bind, Except.bind] at h
    split at h
    · rename_i hnone
      obtain rfl := Except.ok.inj h
      exact extends_put_directory hnone
    · obtain rfl := Except.ok.inj h
      exact .refl _ _
    · cases h

theorem extends_makeDirectories (t : FileTree) (cs : List String) :
    Extends [] t (t.makeDirectories cs).1 := by
  induction cs with
  | nil => exact .refl _ _
  | cons c above ih =>
    rw [makeDirectories]
    cases hmake : t.makeDirectory (c :: above).reverse with
    | ok t' => exact extends_of_makeDirectory hmake
    | error e =>
      cases e with
      | notFound =>
        rcases habove : t.makeDirectories above with ⟨t', e | _⟩
        · rw [habove] at ih
          exact ih
        · rw [habove] at ih
          simp only
          cases hagain : t'.makeDirectory (c :: above).reverse with
          | ok t'' => exact ih.trans (extends_of_makeDirectory hagain)
          | error e => exact ih
      | _ => exact .refl _ _

theorem store_ok {content : ByteArray} (h : t.store path content = .ok t') :
    t.follow [] (components path) = .ok (place path) ∧ t.entry? (place path) ≠ some .directory ∧
      t' = t.put (place path) (.file content) := by
  unfold store at h
  cases hf : t.follow [] (components path) with
  | error e =>
    rw [hf] at h
    exact nomatch h
  | ok l =>
    obtain rfl : place path = l := (follow_eq_ok_iff.1 hf).1
    simp only [hf, bind, Except.bind] at h
    split at h
    · cases h
    · rename_i hdirectory
      exact ⟨rfl, hdirectory, (Except.ok.inj h).symm⟩

theorem extends_write {content : ByteArray} {result : Except FileFault Unit}
    (h : t.write path content = (t', result)) : Extends [place path] t t' := by
  have hmade := (t.extends_makeDirectories (directories path).reverse).mono
    (List.nil_subset [place path])
  unfold write at h
  rcases hdirs : t.makeDirectories (directories path).reverse with ⟨t₁, e | _⟩
  · rw [hdirs] at h hmade
    obtain ⟨rfl, -⟩ := Prod.mk.inj h
    exact hmade
  · rw [hdirs] at h hmade
    cases hstore : t₁.store path content with
    | error e =>
      simp only [hstore] at h
      obtain ⟨rfl, -⟩ := Prod.mk.inj h
      exact hmade
    | ok t₂ =>
      simp only [hstore] at h
      obtain ⟨rfl, -⟩ := Prod.mk.inj h
      obtain ⟨-, hdirectory, rfl⟩ := store_ok hstore
      exact (hmade.trans (extends_put_file hdirectory content)).mono (by simp)

theorem write_ok {content : ByteArray} (h : t.write path content = (t', .ok ())) :
    path ≠ "" ∧ t'.follow [] (components path) = .ok (place path) ∧
      t'.entry? (place path) = some (.file content) := by
  unfold write at h
  rcases hdirs : t.makeDirectories (directories path).reverse with ⟨t₁, e | _⟩
  · simp [hdirs] at h
  · rw [hdirs] at h
    cases hstore : t₁.store path content with
    | error e => simp [hstore] at h
    | ok t₂ =>
      obtain rfl : t₂ = t' := by simpa [hstore] using h
      obtain ⟨hfollow, hdirectory, rfl⟩ := store_ok hstore
      refine ⟨?_, (extends_put_file hdirectory content).follow hfollow, ?_⟩
      · rintro rfl
        exact ne_root hdirectory (by decide)
      · rw [entry?_put (ne_root hdirectory), if_pos rfl]

theorem access_read (path : String) (t : FileTree) :
    access.read path t = (t.read path, t) := rfl

theorem access_write {path content : String} {result : Except FileFault Unit}
    (h : t.write path content.toUTF8 = (t', result)) :
    access.write path content t = (result, t') := by
  simp only [access, h]

end Writing

end StagedBuilder.FileTree
