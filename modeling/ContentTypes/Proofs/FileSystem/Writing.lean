import ContentTypes.Proofs.Listing
import Mathlib
/-!
What making directories and writing files does to a file system. Directories come to places where
nothing was, and a file comes to such a place or takes the place of another file; whatever else is
there stays. A directory that is there is not made again, and a file that holds a content already is
not changed by writing it once more.
-/

namespace ContentTypes

theorem Table.put_of_get? {κ α : Type} [DecidableEq κ] {k : κ} {v : α} {t : List (κ × α)}
    (h : get? k t = some v) : put k v t = t := by
  induction t with
  | nil => cases h
  | cons e t ih =>
    rw [get?] at h
    rw [put]
    split_ifs at h ⊢ with hk
    · cases h
      rfl
    · rw [ih h]

namespace FileSystem

variable {fs fs' fs'' : FileSystem} {dir loc : Location} {n : Name} {o : Object} {p : Path}
  {s : Stop} {content : ByteArray} {mustBeDirectory : Bool}

/-! ### Building -/

/-- What may become of a place: a directory or a file with this content comes to it, or its file
takes this content. -/
inductive Grows (content : ByteArray) : Option Object → Option Object → Prop
  | same (o : Option Object) : Grows content o o
  | made : Grows content none (some .directory)
  | created : Grows content none (some (.file content))
  | overwritten (c : ByteArray) : Grows content (some (.file c)) (some (.file content))

theorem Grows.trans {o o' o'' : Option Object} (h : Grows content o o')
    (h' : Grows content o' o'') : Grows content o o'' := by
  cases h with
  | same => exact h'
  | made =>
    cases h'
    exact .made
  | created =>
    cases h' with
    | same => exact .created
    | overwritten => exact .created
  | overwritten c =>
    cases h' with
    | same => exact .overwritten c
    | overwritten => exact .overwritten c

/-- `fs'` comes from `fs` by making directories and writing files with this content. -/
structure Builds (content : ByteArray) (fs fs' : FileSystem) : Prop where
  workingDirectory : fs'.workingDirectory = fs.workingDirectory
  grows : ∀ l, Grows content (fs.get? l) (fs'.get? l)

namespace Builds

theorem refl (content : ByteArray) (fs : FileSystem) : Builds content fs fs where
  workingDirectory := rfl
  grows := fun l => .same (fs.get? l)

theorem trans (h : Builds content fs fs') (h' : Builds content fs' fs'') :
    Builds content fs fs'' where
  workingDirectory := h'.workingDirectory.trans h.workingDirectory
  grows := fun l => (h.grows l).trans (h'.grows l)

/-- All that may have become of a place. -/
theorem get?_cases (h : Builds content fs fs') (l : Location) : fs'.get? l = fs.get? l ∨
    fs.get? l = none ∧ fs'.get? l = some .directory ∨
    (fs.get? l = none ∨ ∃ c, fs.get? l = some (.file c)) ∧
      fs'.get? l = some (.file content) := by
  have hgrows := h.grows l
  generalize fs.get? l = o at hgrows ⊢
  generalize fs'.get? l = o' at hgrows ⊢
  cases hgrows with
  | same => exact .inl rfl
  | made => exact .inr (.inl ⟨rfl, rfl⟩)
  | created => exact .inr (.inr ⟨.inl rfl, rfl⟩)
  | overwritten c => exact .inr (.inr ⟨.inr ⟨c, rfl⟩, rfl⟩)

theorem covers (h : Builds content fs fs') :
    Covers (fun c c' => c' = c ∨ c' = content) fs fs' where
  workingDirectory := h.workingDirectory
  get? := by
    intro l o ho
    rcases h.get?_cases l with hsame | ⟨hnone, -⟩ | ⟨hnone | ⟨c, hc⟩, hfile⟩
    · refine ⟨o, hsame.trans ho, ?_⟩
      cases o with
      | directory => exact .directory
      | file c => exact .file (.inl rfl)
      | link t => exact .link t
    · cases hnone.symm.trans ho
    · cases hnone.symm.trans ho
    · cases hc.symm.trans ho
      exact ⟨_, hfile, .file (.inr rfl)⟩

theorem linkFree (h : Builds content fs fs') (hfree : fs.LinkFree loc) : fs'.LinkFree loc := by
  intro l hl t ht
  rcases h.get?_cases l with hsame | ⟨-, hnew⟩ | ⟨-, hfile⟩
  · exact hfree l hl t (hsame.symm.trans ht)
  · cases hnew.symm.trans ht
  · cases hfile.symm.trans ht

theorem leadsToDirectory (h : Builds content fs fs') (hp : fs.LeadsToDirectory p) :
    fs'.LeadsToDirectory p := by
  obtain ⟨l, hl⟩ := hp
  obtain ⟨_, hfind, ⟨⟩⟩ := find_of_covers h.covers hl
  exact ⟨l, hfind⟩

/-- A file that was written stays where it is, with what was written. -/
theorem find_file (h : Builds content fs fs') {follow : Bool}
    (hp : fs.find follow p = .ok (loc, .file content)) :
    fs'.find follow p = .ok (loc, .file content) := by
  obtain ⟨_, hfind, hfile⟩ := find_of_covers h.covers hp
  cases hfile with
  | file hc =>
    rw [hfind, or_self_iff.mp hc]

end Builds

/-! ### Directories -/

theorem makeDirectory_eq_ok_iff :
    fs.makeDirectory p = .ok fs' ↔ ∃ s n, fs.walk p = .ok s ∧ s.entry = some n ∧
      fs.lookup s.directory n = .ok none ∧ fs.place (s.directory ++ [n]) .directory = .ok fs' := by
  rw [makeDirectory]
  cases hs : fs.walk p with
  | error e => simp [bind, Except.bind]
  | ok s =>
    cases hn : s.entry with
    | none => simp [bind, Except.bind, hn]
    | some n =>
      cases ho : fs.lookup s.directory n with
      | error e => simp [bind, Except.bind, hn, ho]
      | ok o =>
        cases o with
        | none => simp [bind, Except.bind, hn, ho]
        | some o => simp [bind, Except.bind, hn, ho]

theorem get?_of_lookup {o : Option Object} (h : fs.lookup dir n = .ok o) :
    fs.get? (dir ++ [n]) = o := by
  rw [lookup] at h
  split_ifs at h
  exact Except.ok.inj h

/-- A name that can be looked up can be looked up anywhere. -/
theorem lookup_of_lookup {o : Option Object} (h : fs.lookup dir n = .ok o) (fs' : FileSystem) :
    fs'.lookup dir n = .ok (fs'.get? (dir ++ [n])) := by
  rw [lookup] at h ⊢
  split_ifs at h ⊢
  rfl

theorem builds_makeDirectory (content : ByteArray) (h : fs.makeDirectory p = .ok fs') :
    Builds content fs fs' := by
  obtain ⟨s, n, -, -, hnone, hplace⟩ := makeDirectory_eq_ok_iff.mp h
  obtain ⟨hadmits, rfl⟩ := place_eq_ok_iff.mp hplace
  refine ⟨rfl, ?_⟩
  intro l
  rw [get?_put]
  split_ifs with hl
  · rw [hl, get?_of_lookup hnone]
    exact .made
  · exact .same _

/-- What was made can be found. -/
theorem leadsToDirectory_of_makeDirectory (h : fs.makeDirectory p = .ok fs') :
    fs'.LeadsToDirectory p := by
  have hbuilds := builds_makeDirectory .empty h
  obtain ⟨s, n, hs, hn, hnone, hplace⟩ := makeDirectory_eq_ok_iff.mp h
  obtain ⟨hadmits, hput⟩ := place_eq_ok_iff.mp hplace
  have hlookup : fs'.lookup s.directory n = .ok (some .directory) := by
    rw [lookup_of_lookup hnone, hput, get?_put_self]
  refine ⟨s.directory ++ [n], ?_⟩
  rw [find, walk_of_covers hbuilds.covers hs]
  change fs'.settle true p.endsInSlash s = _
  rw [settle, hn]
  simp only [hlookup]

theorem isDirectory_iff : fs.isDirectory p ↔ fs.LeadsToDirectory p := by
  rw [isDirectory, LeadsToDirectory]
  cases hr : fs.find true p with
  | error e => simp
  | ok r =>
    obtain ⟨loc, o⟩ := r
    cases o <;> simp

/-- Directories are made whether or not the last of them can be. -/
theorem builds_makeDirectories (content : ByteArray) (fs : FileSystem) (p : Path) :
    Builds content fs (fs.makeDirectories p).1 := by
  fun_induction makeDirectories fs p with
  | case1 => exact .refl content _
  | case2 _ _ _ h => exact builds_makeDirectory content h
  | case3 | case7 => exact .refl content _
  | case4 _ _ _ _ _ _ _ hrest ih =>
    rw [hrest] at ih
    exact ih
  | case5 _ _ _ _ _ _ hrest _ h ih =>
    rw [hrest] at ih
    exact ih.trans (builds_makeDirectory content h)
  | case6 _ _ _ _ _ _ hrest _ _ ih =>
    rw [hrest] at ih
    exact ih

/-- Making directories makes no file, whatever content one asks about. -/
theorem get?_file_of_makeDirectories
    (h : (fs.makeDirectories p).1.get? loc = some (.file content)) :
    fs.get? loc = some (.file content) := by
  have hne : content.push 0 ≠ content := by
    intro heq
    have hsize := congrArg ByteArray.size heq
    simp at hsize
  rcases (builds_makeDirectories (content.push 0) fs p).get?_cases loc
    with hsame | ⟨-, hnew⟩ | ⟨-, hfile⟩
  · rw [← hsame, h]
  · cases hnew.symm.trans h
  · exact absurd (Object.file.inj (Option.some.inj (hfile.symm.trans h))) hne

/-- What could not be made is still fine if it is a directory. -/
theorem leadsToDirectory_of_check {e : OsError}
    (h : (fs, if fs.isDirectory p then Except.ok () else Except.error e) = (fs', .ok ())) :
    fs'.LeadsToDirectory p := by
  obtain ⟨rfl, hresult⟩ := Prod.mk.inj h
  split_ifs at hresult with hp
  exact isDirectory_iff.mp hp

theorem leadsToDirectory_of_makeDirectories (h : fs.makeDirectories p = (fs', .ok ())) :
    p.bytes = [] ∨ fs'.LeadsToDirectory p := by
  fun_induction makeDirectories fs p with
  | case1 _ hp => exact .inl hp
  | case2 _ _ _ hmake | case5 _ _ _ _ _ _ _ _ hmake =>
    cases h
    exact .inr (leadsToDirectory_of_makeDirectory hmake)
  | case3 | case4 => cases h
  | case6 | case7 => exact .inr (leadsToDirectory_of_check h)

/-- What settles is there. -/
theorem exists_lookup_of_settle {follow : Bool} {r : Location × Object}
    (h : fs.settle follow mustBeDirectory s = .ok r) (hn : s.entry = some n) :
    ∃ o, fs.lookup s.directory n = .ok (some o) := by
  rw [settle, hn] at h
  cases ho : fs.lookup s.directory n with
  | error e => simp [ho] at h
  | ok o =>
    cases o with
    | none => simp [ho] at h
    | some o => exact ⟨o, rfl⟩

theorem makeDirectory_of_leadsToDirectory (h : fs.LeadsToDirectory p) :
    fs.makeDirectory p = .error .alreadyExists := by
  obtain ⟨loc, hfind⟩ := h
  obtain ⟨s, hs, hsettle⟩ := exists_walk_of_find hfind
  rw [makeDirectory]
  cases hn : s.entry with
  | none => simp [hs, hn, bind, Except.bind]
  | some n =>
    obtain ⟨o, ho⟩ := exists_lookup_of_settle hsettle hn
    simp [hs, hn, ho, bind, Except.bind]

/-- A directory that is there is not made again. -/
theorem makeDirectories_of_leadsToDirectory (h : p.bytes = [] ∨ fs.LeadsToDirectory p) :
    fs.makeDirectories p = (fs, .ok ()) := by
  by_cases hp : p.bytes = []
  · rw [makeDirectories, if_pos hp]
  · have hdir := h.resolve_left hp
    rw [makeDirectories, if_neg hp, makeDirectory_of_leadsToDirectory hdir]
    simp [isDirectory_iff.mpr hdir]

/-! ### Files -/

/-- A file lands in a directory, where nothing is or a file. -/
theorem get?_of_landing (h : fs.landing mustBeDirectory s = .ok loc) :
    fs.get? loc = none ∨ ∃ c, fs.get? loc = some (.file c) := by
  fun_induction landing fs mustBeDirectory s with
  | case1 | case2 | case3 | case5 | case7 | case8 => cases h
  | case4 _ _ _ _ _ hlookup =>
    cases h
    exact .inl (get?_of_lookup hlookup)
  | case6 _ _ _ _ _ c hlookup =>
    cases h
    exact .inr ⟨c, get?_of_lookup hlookup⟩
  | case9 _ _ _ _ _ _ _ _ _ _ _ ih => exact ih h

/-- Where a file landed it can be found. -/
theorem settle_of_landing (h : fs.landing mustBeDirectory s = .ok loc)
    (hbuilds : Builds content fs fs') (hfile : fs'.get? loc = some (.file content)) :
    fs'.settle true mustBeDirectory s = .ok (loc, .file content) := by
  fun_induction landing fs mustBeDirectory s with
  | case1 | case2 | case3 | case5 | case7 | case8 => cases h
  | case4 _ _ _ hn hmust hlookup | case6 _ _ _ hn hmust _ hlookup =>
    cases h
    have hlookup' := lookup_of_lookup hlookup fs'
    rw [hfile] at hlookup'
    rw [settle, hn]
    simp only [hlookup', if_neg hmust]
  | case9 _ _ _ hn hmust t hlookup _ hlinks _ hdescend ih =>
    rw [settle_eq_of_link hn (lookup_link_of_covers hbuilds.covers hlookup) rfl hlinks
      (descend_of_covers hbuilds.covers hdescend), Bool.eq_false_of_not_eq_true hmust,
      Bool.false_or]
    exact ih h

theorem readText_of_find {text : String} (h : fs.find true p = .ok (loc, .file text.toUTF8)) :
    fs.readText p = .ok text := by
  have htext : String.fromUTF8? text.toUTF8 = some text := by
    simp [String.fromUTF8?, String.fromUTF8, String.toUTF8, text.isValidUTF8]
  rw [readText, readBytes, h]
  dsimp only
  rw [htext]

theorem writeFile_eq_ok_iff :
    fs.writeFile p content = .ok fs' ↔ ∃ s loc, fs.walk p = .ok s ∧
      fs.landing p.endsInSlash s = .ok loc ∧ fs.place loc (.file content) = .ok fs' := by
  rw [writeFile]
  cases hs : fs.walk p with
  | error e => simp [bind, Except.bind]
  | ok s =>
    cases hloc : fs.landing p.endsInSlash s with
    | error e => simp [bind, Except.bind, hloc]
    | ok loc => simp [bind, Except.bind, hloc]

theorem builds_writeFile (h : fs.writeFile p content = .ok fs') : Builds content fs fs' := by
  obtain ⟨s, loc, -, hloc, hplace⟩ := writeFile_eq_ok_iff.mp h
  obtain ⟨hadmits, rfl⟩ := place_eq_ok_iff.mp hplace
  refine ⟨rfl, ?_⟩
  intro l
  rw [get?_put]
  split_ifs with hl
  · rcases get?_of_landing hloc with hnone | ⟨c, hfile⟩
    · rw [hl, hnone]
      exact .created
    · rw [hl, hfile]
      exact .overwritten c
  · exact .same _

/-- What was written is found at the end of the path, and nothing else has changed. -/
theorem find_of_writeFile (h : fs.writeFile p content = .ok fs') :
    ∃ loc hadmits, fs' = fs.put loc (.file content) hadmits ∧
      fs'.find true p = .ok (loc, .file content) := by
  have hbuilds := builds_writeFile h
  obtain ⟨s, loc, hs, hloc, hplace⟩ := writeFile_eq_ok_iff.mp h
  obtain ⟨hadmits, hput⟩ := place_eq_ok_iff.mp hplace
  have hfile : fs'.get? loc = some (.file content) := by
    rw [hput, get?_put_self]
  refine ⟨loc, hadmits, hput, ?_⟩
  rw [find, walk_of_covers hbuilds.covers hs]
  exact settle_of_landing hloc hbuilds hfile

/-- A file does not settle where a directory has to be. -/
theorem mustBeDirectory_of_file
    (h : fs.settle true mustBeDirectory s = .ok (loc, .file content)) :
    mustBeDirectory = false := by
  cases mustBeDirectory with
  | false => rfl
  | true =>
    rw [settle_of_file h] at h
    cases h

theorem landing_eq_of_link {s' : Stop} {t : Path} {links : Nat} (hentry : s.entry = some n)
    (hlookup : fs.lookup s.directory n = .ok (some (.link t))) (hlinks : s.links = links + 1)
    (hdescend : fs.descend links (start s.directory t) t.parts = .ok s') :
    fs.landing false s = fs.landing t.endsInSlash s' := by
  obtain ⟨dir, entry, l⟩ := s
  subst hentry
  subst hlinks
  rw [landing]
  simp only [hlookup, Bool.false_eq_true, if_false]
  split
  · next e he =>
    rw [hdescend] at he
    cases he
  · next s'' he =>
    rw [hdescend] at he
    cases he
    rfl

/-- A file that can be found is where it would land. -/
theorem landing_of_settle (h : fs.settle true mustBeDirectory s = .ok (loc, .file content)) :
    fs.landing mustBeDirectory s = .ok loc ∧ fs.get? loc = some (.file content) := by
  have hmust := mustBeDirectory_of_file h
  fun_induction settle fs true mustBeDirectory s with
  | case1 | case2 | case3 | case4 | case5 | case7 | case8 => cases h
  | case6 _ _ _ hn _ hlookup =>
    cases h
    rw [landing, hn]
    simp only [hlookup, hmust]
    exact ⟨rfl, get?_of_lookup hlookup⟩
  | case9 _ _ _ hn t hlookup _ _ hlinks _ hdescend ih =>
    have hslash := mustBeDirectory_of_file h
    rw [hmust, Bool.false_or] at hslash ih h
    rw [hmust, landing_eq_of_link hn hlookup hlinks hdescend]
    exact ih h hslash
  | case10 _ _ _ _ _ _ hfollow => simp at hfollow

theorem get?_of_find_file (h : fs.find true p = .ok (loc, .file content)) :
    fs.get? loc = some (.file content) := by
  obtain ⟨s, -, hsettle⟩ := exists_walk_of_find h
  exact (landing_of_settle hsettle).2

/-- What is there already can be put there, and this changes nothing. -/
theorem place_of_get? (hloc : loc ≠ []) (h : fs.get? loc = some o) : fs.place loc o = .ok fs := by
  rw [get?, objectAt, if_neg hloc] at h
  have hmem := Table.mem_of_get? h
  have hadmits : fs.Admits loc o := by
    refine ⟨fs.placed _ hmem, fs.sound _ hmem, ?_⟩
    rw [get?, objectAt, if_neg hloc, h]
    exact Option.some.inj
  rw [place, dif_pos hadmits]
  obtain ⟨objects, workingDirectory, distinct, placed, sound, working⟩ := fs
  simp only [put, Table.put_of_get? h]

/-- A file that holds a content is not changed by writing it once more. -/
theorem writeFile_of_find (h : fs.find true p = .ok (loc, .file content)) :
    fs.writeFile p content = .ok fs := by
  obtain ⟨s, hs, hsettle⟩ := exists_walk_of_find h
  obtain ⟨hloc, hfile⟩ := landing_of_settle hsettle
  refine writeFile_eq_ok_iff.mpr ⟨s, loc, hs, hloc, place_of_get? ?_ hfile⟩
  rintro rfl
  cases hfile

end FileSystem
end ContentTypes
