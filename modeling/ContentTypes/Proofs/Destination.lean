import ContentTypes.Destination
import ContentTypes.Proofs.FileSystem.Writing
import Mathlib
/-!
What becomes of the destinations. Each is attempted in the file system that those before it left,
and what was written to it stays there whatever comes later, since all of them get the same text.
Where all destinations hold the text already, writing to them changes nothing.
-/

namespace ContentTypes.Destination

variable {fs fs' : FileSystem} {d : Destination} {ds : List Destination} {fileName text : String}

/-- The file system that the attempts on these destinations leave. -/
def afterAll (fs : FileSystem) (fileName text : String) (ds : List Destination) : FileSystem :=
  ds.foldl (fun fs d => (d.write fs fileName text).1) fs

/-- What becomes of a destination after those in front of it. -/
def resultAfter (fs : FileSystem) (fileName text : String) (front : List Destination)
    (d : Destination) : Except WriteError Path :=
  (d.write (afterAll fs fileName text front) fileName text).2

/-- Every destination is written when its turn comes. -/
def AllWritten (fs : FileSystem) (fileName text : String) (ds : List Destination) : Prop :=
  ∀ front d back, ds = front ++ d :: back →
    ∃ path, resultAfter fs fileName text front d = .ok path

/-! ### Attempts -/

theorem afterAll_cons (fs : FileSystem) (fileName text : String) (d : Destination)
    (ds : List Destination) :
    afterAll fs fileName text (d :: ds)
      = afterAll (d.write fs fileName text).1 fileName text ds := rfl

theorem afterAll_append (fs : FileSystem) (fileName text : String) (ds ds' : List Destination) :
    afterAll fs fileName text (ds ++ ds')
      = afterAll (afterAll fs fileName text ds) fileName text ds' :=
  List.foldl_append

theorem fst_writeAll (fs : FileSystem) (fileName text : String) (ds : List Destination) :
    (writeAll fs fileName text ds).1 = afterAll fs fileName text ds := by
  induction ds generalizing fs with
  | nil => rfl
  | cons d ds ih => exact ih (d.write fs fileName text).1

/-- No destination is passed over. -/
theorem mem_writeAll_iff {attempt : Attempt} :
    attempt ∈ (writeAll fs fileName text ds).2 ↔ ∃ front d back, ds = front ++ d :: back ∧
      attempt = ⟨d, resultAfter fs fileName text front d⟩ := by
  induction ds generalizing fs with
  | nil => simp [writeAll]
  | cons d ds ih =>
    change attempt ∈ ⟨d, (d.write fs fileName text).2⟩
      :: (writeAll (d.write fs fileName text).1 fileName text ds).2 ↔ _
    rw [List.mem_cons, ih]
    constructor
    · rintro (rfl | ⟨front, d', back, rfl, rfl⟩)
      · exact ⟨[], d, ds, rfl, rfl⟩
      · exact ⟨d :: front, d', back, rfl, rfl⟩
    · rintro ⟨front, d', back, hds, rfl⟩
      cases front with
      | nil =>
        cases hds
        exact .inl rfl
      | cons d'' front =>
        cases hds
        exact .inr ⟨front, d', back, rfl, rfl⟩

theorem Attempt.failed_eq_false_iff {attempt : Attempt} :
    attempt.failed = false ↔ ∃ path, attempt.result = .ok path := by
  obtain ⟨d, result⟩ := attempt
  cases result <;> simp [Attempt.failed]

theorem all_writeAll_iff :
    (writeAll fs fileName text ds).2.all (!·.failed) = true ↔ AllWritten fs fileName text ds := by
  simp only [List.all_eq_true, Bool.not_eq_true', Attempt.failed_eq_false_iff]
  constructor
  · intro h front d back hds
    exact h _ (mem_writeAll_iff.mpr ⟨front, d, back, hds, rfl⟩)
  · intro h attempt hattempt
    obtain ⟨front, d, back, hds, rfl⟩ := mem_writeAll_iff.mp hattempt
    exact h front d back hds

theorem AllWritten.tail (h : AllWritten fs fileName text (d :: ds)) :
    AllWritten (d.write fs fileName text).1 fileName text ds := by
  intro front d' back hds
  exact h (d :: front) d' back (by rw [hds]; rfl)

theorem AllWritten.exists_write (h : AllWritten fs fileName text (d :: ds)) :
    ∃ fs' path, d.write fs fileName text = (fs', .ok path) ∧
      AllWritten fs' fileName text ds ∧
      afterAll fs fileName text (d :: ds) = afterAll fs' fileName text ds := by
  obtain ⟨path, hpath⟩ := h [] d ds rfl
  exact ⟨_, path, Prod.ext rfl hpath, h.tail, rfl⟩

/-! ### What an attempt changes -/

open FileSystem

theorem builds_write (d : Destination) (fs : FileSystem) (fileName text : String) :
    Builds text.toUTF8 fs (d.write fs fileName text).1 := by
  have hmade := builds_makeDirectories text.toUTF8 fs d.directory
  rw [write]
  cases hm : fs.makeDirectories d.directory with
  | mk fs' result =>
    rw [hm] at hmade
    cases result with
    | error e => exact hmade
    | ok =>
      dsimp only
      cases hw : fs'.writeFile (d.filePath fileName) text.toUTF8 with
      | error e => exact hmade
      | ok fs'' => exact hmade.trans (builds_writeFile hw)

theorem builds_afterAll (fs : FileSystem) (fileName text : String) (ds : List Destination) :
    Builds text.toUTF8 fs (afterAll fs fileName text ds) := by
  induction ds generalizing fs with
  | nil => exact .refl _ fs
  | cons d ds ih => exact (builds_write d fs fileName text).trans (ih _)

/-- A destination is in order: its directory is there, and its file has the text. -/
structure Holds (d : Destination) (fs : FileSystem) (fileName text : String) : Prop where
  directory : d.directory.bytes = [] ∨ fs.LeadsToDirectory d.directory
  file : ∃ loc, fs.find true (d.filePath fileName) = .ok (loc, .file text.toUTF8)

theorem Holds.of_builds (h : d.Holds fs fileName text) (hbuilds : Builds text.toUTF8 fs fs') :
    d.Holds fs' fileName text where
  directory := h.directory.imp_right hbuilds.leadsToDirectory
  file := by
    obtain ⟨loc, hfind⟩ := h.file
    exact ⟨loc, hbuilds.find_file hfind⟩

/-- An attempt that succeeds has made the directory and then written the file. -/
theorem exists_writeFile_of_write {path : Path}
    (h : d.write fs fileName text = (fs', .ok path)) : path = d.filePath fileName ∧
      ∃ between, fs.makeDirectories d.directory = (between, .ok ()) ∧
        between.writeFile path text.toUTF8 = .ok fs' := by
  rw [write] at h
  cases hm : fs.makeDirectories d.directory with
  | mk between result =>
    rw [hm] at h
    cases result with
    | error e => cases h
    | ok =>
      cases hw : between.writeFile (d.filePath fileName) text.toUTF8 with
      | error e =>
        simp only [hw] at h
        cases h
      | ok fs'' =>
        simp only [hw] at h
        cases h
        exact ⟨rfl, between, rfl, hw⟩

theorem holds_of_write {path : Path} (h : d.write fs fileName text = (fs', .ok path)) :
    d.Holds fs' fileName text := by
  obtain ⟨rfl, between, hmake, hwrite⟩ := exists_writeFile_of_write h
  obtain ⟨loc, -, -, hfind⟩ := find_of_writeFile hwrite
  have hdirectory := leadsToDirectory_of_makeDirectories hmake
  exact ⟨hdirectory.imp_right (builds_writeFile hwrite).leadsToDirectory, loc, hfind⟩

/-- A destination that is in order is not changed by one more attempt. -/
theorem write_of_holds (h : d.Holds fs fileName text) :
    d.write fs fileName text = (fs, .ok (d.filePath fileName)) := by
  obtain ⟨loc, hfind⟩ := h.file
  rw [write, makeDirectories_of_leadsToDirectory h.directory]
  dsimp only
  rw [writeFile_of_find hfind]

/-! ### What all attempts leave -/

/-- What is written at its turn is in order at the end. -/
theorem holds_afterAll {front : List Destination} {path : Path}
    (h : resultAfter fs fileName text front d = .ok path) (back : List Destination) :
    path = d.filePath fileName ∧
      d.Holds (afterAll fs fileName text (front ++ d :: back)) fileName text := by
  have hwrite : d.write (afterAll fs fileName text front) fileName text
      = ((d.write (afterAll fs fileName text front) fileName text).1, .ok path) :=
    Prod.ext rfl h
  refine ⟨(exists_writeFile_of_write hwrite).1, ?_⟩
  rw [afterAll_append, afterAll_cons]
  exact (holds_of_write hwrite).of_builds (builds_afterAll _ fileName text back)

theorem AllWritten.holds (h : AllWritten fs fileName text ds) (hd : d ∈ ds) :
    d.Holds (afterAll fs fileName text ds) fileName text := by
  obtain ⟨front, back, rfl⟩ := List.append_of_mem hd
  obtain ⟨path, hpath⟩ := h front d back rfl
  exact (holds_afterAll hpath back).2

theorem writeAll_of_holds (h : ∀ d ∈ ds, d.Holds fs fileName text) :
    writeAll fs fileName text ds = (fs, ds.map fun d => ⟨d, .ok (d.filePath fileName)⟩) := by
  induction ds with
  | nil => rfl
  | cons d ds ih =>
    obtain ⟨hd, hds⟩ := List.forall_mem_cons.mp h
    rw [writeAll, write_of_holds hd]
    dsimp only
    rw [ih hds]
    rfl

theorem AllWritten.attempts (h : AllWritten fs fileName text ds) :
    (writeAll fs fileName text ds).2 = ds.map fun d => ⟨d, .ok (d.filePath fileName)⟩ := by
  induction ds generalizing fs with
  | nil => rfl
  | cons d ds ih =>
    obtain ⟨fs', path, hd, htail, -⟩ := h.exists_write
    obtain ⟨rfl, -⟩ := exists_writeFile_of_write hd
    rw [writeAll, hd, List.map_cons, ← ih htail]

/-- Where all destinations were written, writing to them again comes to the same and changes
nothing. -/
theorem AllWritten.writeAll_again (h : AllWritten fs fileName text ds) :
    writeAll (writeAll fs fileName text ds).1 fileName text ds
      = writeAll fs fileName text ds := by
  rw [fst_writeAll, writeAll_of_holds fun d hd => h.holds hd, ← h.attempts, ← fst_writeAll]

/-- A file that is there after an attempt was there before, or the attempt has written it. -/
theorem file_cases_of_write {loc : Location} {content : ByteArray}
    (h : (d.write fs fileName text).1.get? loc = some (.file content)) :
    fs.get? loc = some (.file content) ∨ ∃ path, (d.write fs fileName text).2 = .ok path ∧
      (d.write fs fileName text).1.find true path = .ok (loc, .file text.toUTF8) := by
  cases hm : fs.makeDirectories d.directory with
  | mk between made =>
    have hmade : between.get? loc = some (.file content) → fs.get? loc = some (.file content) := by
      intro hbetween
      apply get?_file_of_makeDirectories (p := d.directory)
      rw [hm, hbetween]
    rw [write, hm] at h ⊢
    cases made with
    | error e => exact .inl (hmade h)
    | ok =>
      dsimp only at h ⊢
      cases hw : between.writeFile (d.filePath fileName) text.toUTF8 with
      | error e =>
        rw [hw] at h
        exact .inl (hmade h)
      | ok fs' =>
        rw [hw] at h
        obtain ⟨l, hadmits, rfl, hfind⟩ := find_of_writeFile hw
        by_cases hloc : loc = l
        · subst hloc
          exact .inr ⟨_, rfl, hfind⟩
        · dsimp only at h
          rw [get?_put_of_ne hadmits hloc] at h
          exact .inl (hmade h)

/-- A file that is there in the end was there before, or it is the file of a destination that was
written. -/
theorem file_cases {loc : Location} {content : ByteArray}
    (h : (afterAll fs fileName text ds).get? loc = some (.file content)) :
    fs.get? loc = some (.file content) ∨ ∃ front d back path, ds = front ++ d :: back ∧
      resultAfter fs fileName text front d = .ok path ∧
      (afterAll fs fileName text ds).find true path = .ok (loc, .file text.toUTF8) := by
  induction ds generalizing fs with
  | nil => exact .inl h
  | cons d ds ih =>
    rw [afterAll_cons] at h ⊢
    rcases ih h with hafter | ⟨front, d', back, path, rfl, hpath, hfind⟩
    · rcases file_cases_of_write hafter with hbefore | ⟨path, hpath, hfind⟩
      · exact .inl hbefore
      · exact .inr ⟨[], d, ds, path, rfl, hpath,
          (builds_afterAll _ fileName text ds).find_file hfind⟩
    · exact .inr ⟨d :: front, d', back, path, rfl, hpath, hfind⟩

end ContentTypes.Destination
