import ContentTypes.FileSystem.Access
import ContentTypes.Proofs.FileSystem.Files
import Mathlib
/-!
Directories in a directory. A path to a directory and a name in it make a path to what has this
name there, unless they are too long together: nothing else can go wrong behind a path that leads
to a directory. Slashes at its end only make it longer.
-/

namespace ContentTypes

theorem Path.parts_of_notMem {n : List UInt8} (hne : n ≠ []) (hn : slash ∉ n) :
    (⟨n⟩ : Path).parts = [n] := by
  simp [parts, split_of_notMem hn, hne]

theorem Path.parts_append_slashes (bytes : List UInt8) (k : Nat) :
    (⟨bytes ++ List.replicate k slash⟩ : Path).parts = (⟨bytes⟩ : Path).parts := by
  induction k generalizing bytes with
  | zero => rw [List.replicate_zero, List.append_nil]
  | succ k ih =>
    rw [List.replicate_succ, List.append_cons, ih, parts_append_slash]
    exact List.append_nil _

theorem Path.mem_bytes_join {p q : Path} {b : UInt8} (h : b ∈ (p.join q).bytes) :
    b ∈ p.bytes ∨ b = slash ∨ b ∈ q.bytes := by
  rw [join] at h
  split_ifs at h
  · exact .inr (.inr h)
  · exact (List.mem_append.mp h).imp_right .inr
  · exact (List.mem_append.mp h).imp_right List.mem_cons.mp

namespace FileSystem

variable {fs : FileSystem} {mustBeDirectory : Bool} {dir : Path} {loc : Location} {s : Stop}
  {rest : List Name} {n : Name}

/-- Where a stop settles on a directory, further parts are taken from there. -/
theorem exists_descend_ahead_of_directory (hentry : ∀ n ∈ s.entry, n ≠ [Path.dot] ∧ n ≠ dots)
    (h : fs.settle true mustBeDirectory s = .ok (loc, .directory)) (hrest : rest ≠ []) :
    ∃ links, fs.descend s.links s.directory (s.ahead rest) = fs.descend links loc rest := by
  fun_induction settle fs true mustBeDirectory s with
  | case1 _ s hn =>
    cases h
    exact ⟨s.links, by rw [Stop.ahead, hn]; rfl⟩
  | case2 | case3 | case5 | case6 | case7 | case8 => cases h
  | case4 _ s n hn hlookup =>
    cases h
    obtain ⟨hdot, hdots⟩ := hentry n hn
    refine ⟨s.links, ?_⟩
    rw [Stop.ahead, hn, Option.toList_some, List.singleton_append, descend, if_neg hdot,
      if_neg hdots, if_neg hrest, hlookup]
  | case9 _ s n hn t hlookup _ links hlinks s' hdescend ih =>
    obtain ⟨hdot, hdots⟩ := hentry n hn
    rw [Stop.ahead, hn, Option.toList_some, List.singleton_append, descend, if_neg hdot,
      if_neg hdots, if_neg hrest, hlookup, hlinks]
    obtain ⟨left, hleft⟩ := ih (entry_of_descend hdescend) h
    exact ⟨left, by rw [← hleft, ← descend_append hdescend]⟩
  | case10 _ _ _ _ _ _ hfollow => simp at hfollow

section
variable (hdir : fs.find true dir = .ok (loc, .directory)) (hn : IsName n)
include hdir hn

/-- The longer path is as sound as the one to the directory. -/
theorem bytes_join_sound : 0 ∉ (dir.join ⟨n⟩).bytes ∧ (dir.join ⟨n⟩).bytes ≠ [] := by
  obtain ⟨s, hwalk, -⟩ := exists_walk_of_find hdir
  obtain ⟨hzero, hbytes, -, -⟩ := walk_eq_ok_iff.mp hwalk
  refine ⟨?_, Path.bytes_join_ne_nil hbytes (Path.not_isAbsolute_of_notMem hn.noSlash)⟩
  intro hmem
  rcases Path.mem_bytes_join hmem with h | h | h
  · exact hzero h
  · cases h
  · exact hn.noZero h

/-- The name in the directory is where the longer path stops. -/
theorem exists_walk_join (hlimit : (dir.join ⟨n⟩).bytes.length ≤ pathLimit) :
    ∃ links, fs.walk (dir.join ⟨n⟩) = .ok ⟨loc, some n, links⟩ := by
  obtain ⟨hzero, hbytes⟩ := bytes_join_sound hdir hn
  obtain ⟨s, hwalk, hsettle⟩ := exists_walk_of_find hdir
  obtain ⟨-, hdirBytes, -, hdescend⟩ := walk_eq_ok_iff.mp hwalk
  have hrelative := Path.not_isAbsolute_of_notMem hn.noSlash
  obtain ⟨links, hahead⟩ :=
    exists_descend_ahead_of_directory (entry_of_descend hdescend) hsettle (List.cons_ne_nil n [])
  refine ⟨links, walk_eq_ok_iff.mpr ⟨hzero, hbytes, hlimit, ?_⟩⟩
  have hstart : start fs.workingDirectory (dir.join ⟨n⟩) = start fs.workingDirectory dir := by
    rw [start, start, Path.isAbsolute_join hdirBytes hrelative]
  rw [hstart, Path.parts_join hdirBytes hrelative, Path.parts_of_notMem hn.ne_nil hn.noSlash,
    descend_append hdescend, hahead, descend, if_neg hn.ne_dot, if_neg hn.ne_dots, if_pos rfl]

end

theorem lookup_of_isName (hn : IsName n) (fs : FileSystem) (loc : Location) :
    fs.lookup loc n = .ok (fs.get? (loc ++ [n])) := by
  rw [lookup, if_neg (Nat.not_lt.mpr hn.length_le)]

/-- A directory in a directory is found by its path, unless this is too long. -/
theorem find_join_directory (hdir : fs.find true dir = .ok (loc, .directory))
    (hget : fs.get? (loc ++ [n]) = some .directory) :
    fs.find true (dir.join ⟨n⟩) = if pathLimit < (dir.join ⟨n⟩).bytes.length then
        .error .nameTooLong
      else .ok (loc ++ [n], .directory) := by
  obtain ⟨-, hn⟩ := parent hget
  split_ifs with hlimit
  · obtain ⟨hzero, hbytes⟩ := bytes_join_sound hdir hn
    rw [find, walk, if_neg hzero, if_neg hbytes, if_pos hlimit]
    rfl
  · obtain ⟨links, hwalk⟩ := exists_walk_join hdir hn (Nat.le_of_not_lt hlimit)
    rw [find, hwalk]
    change fs.settle true _ ⟨loc, some n, links⟩ = _
    rw [settle]
    simp only [lookup_of_isName hn, hget]

theorem directoryAt_join (hdir : fs.find true dir = .ok (loc, .directory))
    (hget : fs.get? (loc ++ [n]) = some .directory) :
    fs.directoryAt (dir.join ⟨n⟩) = if pathLimit < (dir.join ⟨n⟩).bytes.length then
        .error .nameTooLong
      else .ok (loc ++ [n]) := by
  rw [directoryAt, find_join_directory hdir hget]
  split_ifs <;> rfl

/-! ### Slashes at the end -/

/-- A directory settles whether or not it has to be one. -/
theorem settle_of_directory {mustBeDirectory' : Bool}
    (h : fs.settle true mustBeDirectory s = .ok (loc, .directory)) :
    fs.settle true mustBeDirectory' s = .ok (loc, .directory) := by
  fun_induction settle fs true mustBeDirectory s generalizing mustBeDirectory' with
  | case1 _ s hn =>
    rw [settle, hn]
    exact h
  | case4 _ s n hn hlookup =>
    rw [settle, hn]
    simp only [hlookup]
    exact h
  | case2 | case3 | case5 | case6 | case7 | case8 => cases h
  | case9 _ s n hn t hlookup _ links hlinks s' hdescend ih =>
    rw [settle_eq_of_link hn hlookup rfl hlinks hdescend]
    exact ih h
  | case10 _ _ _ _ _ _ hfollow => simp at hfollow

theorem find_append_slashes {bytes : List UInt8} {k : Nat}
    (h : fs.find true ⟨bytes⟩ = .ok (loc, .directory)) (hlimit : bytes.length + k ≤ pathLimit) :
    fs.find true ⟨bytes ++ List.replicate k Path.slash⟩ = .ok (loc, .directory) := by
  obtain ⟨s, hwalk, hsettle⟩ := exists_walk_of_find h
  obtain ⟨hzero, hbytes, -, hdescend⟩ := walk_eq_ok_iff.mp hwalk
  have hstart : start fs.workingDirectory ⟨bytes ++ List.replicate k Path.slash⟩
      = start fs.workingDirectory ⟨bytes⟩ := by
    rw [start, start, Path.isAbsolute, Path.isAbsolute, List.head?_append_of_ne_nil _ hbytes]
  have hwalk' : fs.walk ⟨bytes ++ List.replicate k Path.slash⟩ = .ok s := by
    refine walk_eq_ok_iff.mpr ⟨?_, by simp [hbytes], by simpa using hlimit, ?_⟩
    · intro hmem
      rcases List.mem_append.mp hmem with hmem | hmem
      · exact hzero hmem
      · cases (List.mem_replicate.mp hmem).2
    · rw [hstart, Path.parts_append_slashes]
      exact hdescend
  rw [find, hwalk']
  exact settle_of_directory hsettle

end FileSystem
end ContentTypes
