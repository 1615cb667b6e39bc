import ContentTypes.Proofs.FileSystem.Growth
import ContentTypes.Proofs.Path
import Mathlib
/-!
Paths that meet a regular file. A path that leads to one and goes on cannot be resolved, whether a
further part follows or only a slash. What a path leads to is never a link, so that a file, a
directory and a failure are all that there is.
-/

namespace ContentTypes

namespace FileSystem

variable {fs : FileSystem} {mustBeDirectory : Bool} {links : Nat} {dir loc : Location} {s : Stop}
  {parts rest : List Name} {content : ByteArray} {p : Path}

/-! ### Going on from a stop -/

/-- The parts that are left at a stop if `rest` comes after it. -/
def Stop.ahead (s : Stop) (rest : List Name) : List Name :=
  s.entry.toList ++ rest

theorem descend_append (h : fs.descend links dir parts = .ok s) (rest : List Name) :
    fs.descend links dir (parts ++ rest) = fs.descend s.links s.directory (s.ahead rest) := by
  fun_induction descend fs links dir parts with
  | case1 =>
    cases h
    rfl
  | case2 _ _ _ ih =>
    rw [List.cons_append, descend, if_pos rfl]
    exact ih h
  | case3 _ _ _ hdot ih =>
    rw [List.cons_append, descend, if_neg hdot, if_pos rfl]
    exact ih h
  | case4 =>
    cases h
    rfl
  | case5 | case6 | case7 | case9 => cases h
  | case8 _ _ _ _ hdot hdots hrest hlookup ih =>
    rw [List.cons_append, descend, if_neg hdot, if_neg hdots, if_neg (by simp [hrest]), hlookup]
    exact ih h
  | case10 _ _ _ hdot hdots hrest _ hlookup _ ih =>
    rw [List.append_assoc] at ih
    rw [List.cons_append, descend, if_neg hdot, if_neg hdots, if_neg (by simp [hrest]), hlookup]
    exact ih h

/-- A stop leaves neither `.` nor `..` to be looked up. -/
theorem entry_of_descend (h : fs.descend links dir parts = .ok s) :
    ∀ n ∈ s.entry, n ≠ [Path.dot] ∧ n ≠ dots := by
  fun_induction descend fs links dir parts with
  | case1 =>
    cases h
    simp
  | case2 _ _ _ ih => exact ih h
  | case3 _ _ _ _ ih => exact ih h
  | case4 _ _ _ hdot hdots =>
    cases h
    rintro _ ⟨⟩
    exact ⟨hdot, hdots⟩
  | case5 | case6 | case7 | case9 => cases h
  | case8 _ _ _ _ _ _ _ _ ih => exact ih h
  | case10 _ _ _ _ _ _ _ _ _ ih => exact ih h

/-- Where a stop settles on a file, no further part can be looked up. -/
theorem descend_ahead_of_file (hentry : ∀ n ∈ s.entry, n ≠ [Path.dot] ∧ n ≠ dots)
    (h : fs.settle true mustBeDirectory s = .ok (loc, .file content)) (hrest : rest ≠ []) :
    fs.descend s.links s.directory (s.ahead rest) = .error .notDirectory := by
  fun_induction settle fs true mustBeDirectory s with
  | case1 | case2 | case3 | case4 | case5 | case7 | case8 => cases h
  | case6 _ s n hn _ hlookup =>
    obtain ⟨hdot, hdots⟩ := hentry n hn
    rw [Stop.ahead, hn, Option.toList_some, List.singleton_append, descend, if_neg hdot,
      if_neg hdots, if_neg hrest, hlookup]
  | case9 _ s n hn t hlookup _ links hlinks s' hdescend ih =>
    obtain ⟨hdot, hdots⟩ := hentry n hn
    rw [Stop.ahead, hn, Option.toList_some, List.singleton_append, descend, if_neg hdot,
      if_neg hdots, if_neg hrest, hlookup, hlinks]
    rw [← ih (entry_of_descend hdescend) h, ← descend_append hdescend]
  | case10 _ _ _ _ _ _ hfollow => simp at hfollow

/-- Nor does a file settle where a directory is asked for. -/
theorem settle_of_file (h : fs.settle true mustBeDirectory s = .ok (loc, .file content)) :
    fs.settle true true s = .error .notDirectory := by
  fun_induction settle fs true mustBeDirectory s with
  | case1 | case2 | case3 | case4 | case5 | case7 | case8 => cases h
  | case6 _ s n hn _ hlookup =>
    rw [settle, hn]
    simp only [hlookup, if_true]
  | case9 _ s n hn t hlookup _ links hlinks s' hdescend ih =>
    rw [settle_eq_of_link hn hlookup rfl hlinks hdescend]
    exact ih h
  | case10 _ _ _ _ _ _ hfollow => simp at hfollow

theorem settle_ne_link (t : Path) : fs.settle true mustBeDirectory s ≠ .ok (loc, .link t) := by
  intro h
  fun_induction settle fs true mustBeDirectory s with
  | case1 | case2 | case3 | case4 | case5 | case6 | case7 | case8 => cases h
  | case9 _ _ _ _ _ _ _ _ _ _ _ ih => exact ih h
  | case10 _ _ _ _ _ _ hfollow => simp at hfollow

/-! ### Where a path leads -/

def LeadsToDirectory (fs : FileSystem) (p : Path) : Prop :=
  ∃ loc, fs.find true p = .ok (loc, .directory)

def LeadsToFile (fs : FileSystem) (p : Path) : Prop :=
  ∃ loc content, fs.find true p = .ok (loc, .file content)

/-- Nothing is found at the end of the path. -/
def IsMissing (fs : FileSystem) (p : Path) : Prop :=
  fs.find true p = .error .notFound

/-- The path up to one of its slashes leads to a file. -/
def RunsThroughFile (fs : FileSystem) (p : Path) : Prop :=
  ∃ front back, p.bytes = front ++ Path.slash :: back ∧ fs.LeadsToFile ⟨front⟩

theorem walk_eq_ok_iff :
    fs.walk p = .ok s ↔ 0 ∉ p.bytes ∧ p.bytes ≠ [] ∧ p.bytes.length ≤ pathLimit ∧
      fs.descend linkLimit (start fs.workingDirectory p) p.parts = .ok s := by
  rw [walk]
  split_ifs with hzero hnil hlimit
  · simp [hzero]
  · simp [hnil]
  · simp [hlimit]
  · simp [hzero, hnil, Nat.le_of_not_lt hlimit]

theorem exists_walk_of_find {follow : Bool} {r : Location × Object}
    (h : fs.find follow p = .ok r) :
    ∃ s, fs.walk p = .ok s ∧ fs.settle follow p.endsInSlash s = .ok r := by
  rw [find] at h
  cases hs : fs.walk p with
  | error e =>
    rw [hs] at h
    cases h
  | ok s =>
    rw [hs] at h
    exact ⟨s, rfl, h⟩

/-- All that a path can come to. -/
theorem find_cases (fs : FileSystem) (p : Path) :
    fs.LeadsToDirectory p ∨ fs.LeadsToFile p ∨ fs.IsMissing p ∨
      ∃ e, fs.find true p = .error e ∧ e ≠ .notFound := by
  cases h : fs.find true p with
  | error e =>
    by_cases he : e = .notFound
    · rw [he] at h
      exact .inr (.inr (.inl h))
    · exact .inr (.inr (.inr ⟨e, rfl, he⟩))
  | ok r =>
    obtain ⟨loc, o⟩ := r
    cases o with
    | directory => exact .inl ⟨loc, h⟩
    | file content => exact .inr (.inl ⟨loc, content, h⟩)
    | link t =>
      obtain ⟨s, -, hs⟩ := exists_walk_of_find h
      exact absurd hs (settle_ne_link t)

theorem start_append {front : List UInt8} (h : front ≠ []) (dir : Location) (back : List UInt8) :
    start dir ⟨front ++ back⟩ = start dir ⟨front⟩ := by
  obtain ⟨b, rest, rfl⟩ := List.exists_cons_of_ne_nil h
  rfl

theorem descend_through_file {front : List UInt8} (hwalk : fs.walk ⟨front⟩ = .ok s)
    (hfile : fs.settle true (Path.endsInSlash ⟨front⟩) s = .ok (loc, .file content))
    (back : List UInt8) :
    (do fs.settle true (Path.endsInSlash ⟨front ++ Path.slash :: back⟩)
          (← fs.descend linkLimit (start fs.workingDirectory ⟨front ++ Path.slash :: back⟩)
            (Path.parts ⟨front ++ Path.slash :: back⟩)))
      = .error .notDirectory := by
  obtain ⟨-, hfront, -, hdescend⟩ := walk_eq_ok_iff.mp hwalk
  rw [start_append hfront, Path.parts_append_slash, descend_append hdescend]
  by_cases hback : (⟨back⟩ : Path).parts = []
  · -- only slashes follow the file
    have hs : fs.descend s.links s.directory (s.ahead (⟨back⟩ : Path).parts) = .ok s := by
      rw [← descend_append hdescend, hback, List.append_nil, hdescend]
    rw [hs, Path.endsInSlash_of_parts_eq_nil front hback]
    exact settle_of_file hfile
  · rw [descend_ahead_of_file (entry_of_descend hdescend) hfile hback]
    rfl

theorem find_of_runsThroughFile (h : fs.RunsThroughFile p) :
    ∃ e, fs.find true p = .error e ∧ e ≠ .notFound := by
  obtain ⟨front, back, hbytes, loc, content, hfile⟩ := h
  obtain ⟨s, hwalk, hsettle⟩ := exists_walk_of_find hfile
  obtain ⟨bytes⟩ := p
  cases hbytes
  rw [find, walk]
  split_ifs with hzero hnil hlimit
  · exact ⟨.zeroByte, rfl, by decide⟩
  · simp at hnil
  · exact ⟨.nameTooLong, rfl, by decide⟩
  · exact ⟨.notDirectory, descend_through_file hwalk hsettle back, by decide⟩

end FileSystem
end ContentTypes
