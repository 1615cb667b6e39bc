import ContentTypes.Proofs.FileSystem.Writing
import Mathlib
/-!
Paths without `..` where nothing is a link. Such a path names one location, and is followed part by
part towards it. What is built away from that location, the directories above it included, is not
seen from the path, unless the next part is too long for a name: this is noticed only in a
directory that is there.
-/

namespace ContentTypes.FileSystem

variable {fs fs' : FileSystem} {dir loc more : Location} {parts : List Name} {p q : Path}
  {content : ByteArray} {follow mustBeDirectory : Bool}

/-- The parts of a path that lead on. -/
def steps (parts : List Name) : List Name :=
  parts.filter (· ≠ [Path.dot])

/-- The location that a path without `..` names, if no link is on the way. -/
def location (fs : FileSystem) (p : Path) : Location :=
  start fs.workingDirectory p ++ steps p.parts

theorem steps_cons_dot (parts : List Name) : steps ([Path.dot] :: parts) = steps parts := rfl

theorem steps_cons {n : Name} (hn : n ≠ [Path.dot]) (parts : List Name) :
    steps (n :: parts) = n :: steps parts :=
  List.filter_cons_of_pos (by simpa using hn)

theorem steps_append (parts more : List Name) :
    steps (parts ++ more) = steps parts ++ steps more :=
  List.filter_append parts more

/-! ### Part by part -/

/-- What is found along these parts, of which none is `..`, where nothing is a link. -/
def seek (fs : FileSystem) (mustBeDirectory : Bool) (dir : Location) :
    List Name → Except OsError (Location × Object)
  | [] => .ok (dir, .directory)
  | n :: rest =>
    if n = [Path.dot] then seek fs mustBeDirectory dir rest
    else
      match fs.lookup dir n with
      | .error e => .error e
      | .ok none => .error .notFound
      | .ok (some .directory) => seek fs mustBeDirectory (dir ++ [n]) rest
      | .ok (some (.file content)) =>
        if rest = [] ∧ mustBeDirectory = false then .ok (dir ++ [n], .file content)
        else .error .notDirectory
      | .ok (some (.link _)) => .error .tooManyLinks

/-- All that a look into a directory can come to. -/
theorem lookup_cases (hfree : fs.LinkFree []) (dir : Location) (n : Name) :
    (∃ e, fs.lookup dir n = .error e) ∨ fs.lookup dir n = .ok none ∨
      fs.lookup dir n = .ok (some .directory) ∨
      ∃ content, fs.lookup dir n = .ok (some (.file content)) := by
  cases ho : fs.lookup dir n with
  | error e => exact .inl ⟨e, rfl⟩
  | ok o =>
    cases o with
    | none => exact .inr (.inl rfl)
    | some o =>
      cases o with
      | directory => exact .inr (.inr (.inl rfl))
      | file content => exact .inr (.inr (.inr ⟨content, rfl⟩))
      | link t => exact absurd (get?_of_lookup ho) (hfree _ List.nil_prefix t)

theorem settle_descend_eq_seek (hfree : fs.LinkFree []) (hparts : dots ∉ parts) (links : Nat) :
    (do fs.settle follow mustBeDirectory (← fs.descend links dir parts))
      = fs.seek mustBeDirectory dir parts := by
  induction parts generalizing dir with
  | nil =>
    rw [descend, seek]
    change fs.settle follow mustBeDirectory _ = _
    rw [settle]
  | cons n rest ih =>
    rw [List.mem_cons, not_or] at hparts
    obtain ⟨hdots, hrest⟩ := hparts
    rw [descend, seek, if_neg (Ne.symm hdots)]
    by_cases hdot : n = [Path.dot]
    · rw [if_pos hdot, if_pos hdot]
      exact ih hrest
    rw [if_neg hdot, if_neg hdot]
    by_cases hlast : rest = []
    · -- the last part is looked up as the entry of the stop
      rw [if_pos hlast, hlast]
      change fs.settle follow mustBeDirectory _ = _
      rw [settle]
      rcases lookup_cases hfree dir n with ⟨e, ho⟩ | ho | ho | ⟨content, ho⟩
      · simp only [ho]
      · simp only [ho]
      · simp only [ho, seek]
      · cases mustBeDirectory <;> simp [ho]
    · rw [if_neg hlast]
      rcases lookup_cases hfree dir n with ⟨e, ho⟩ | ho | ho | ⟨content, ho⟩
      · simp only [ho]
        rfl
      · simp only [ho]
        rfl
      · simp only [ho]
        exact ih hrest
      · simp only [ho, hlast, false_and, if_false]
        rfl

/-- A path is followed part by part, once it is sound as such. -/
theorem find_eq_seek (hfree : fs.LinkFree []) (hp : dots ∉ p.parts) :
    fs.find follow p = if 0 ∈ p.bytes then .error .zeroByte
      else if p.bytes = [] then .error .notFound
      else if pathLimit < p.bytes.length then .error .nameTooLong
      else fs.seek p.endsInSlash (start fs.workingDirectory p) p.parts := by
  rw [find, walk, ← settle_descend_eq_seek hfree hp linkLimit]
  split_ifs <;> rfl

theorem location_of_seek (hfree : fs.LinkFree []) {o : Object}
    (h : fs.seek mustBeDirectory dir parts = .ok (loc, o)) : loc = dir ++ steps parts := by
  induction parts generalizing dir with
  | nil =>
    cases h
    exact (List.append_nil _).symm
  | cons n rest ih =>
    rw [seek] at h
    by_cases hdot : n = [Path.dot]
    · rw [if_pos hdot] at h
      rw [hdot, steps_cons_dot]
      exact ih h
    rw [if_neg hdot] at h
    rw [steps_cons hdot, List.append_cons]
    rcases lookup_cases hfree dir n with ⟨e, ho⟩ | ho | ho | ⟨content, ho⟩
    · simp [ho] at h
    · simp [ho] at h
    · simp only [ho] at h
      exact ih h
    · simp only [ho] at h
      split_ifs at h with hlast
      cases h
      rw [hlast.1]
      exact (List.append_nil _).symm

/-- What is found stands at the location that the path names. -/
theorem location_of_find (hfree : fs.LinkFree []) (hp : dots ∉ p.parts) {o : Object}
    (h : fs.find follow p = .ok (loc, o)) : loc = fs.location p := by
  rw [find_eq_seek hfree hp] at h
  split_ifs at h
  exact location_of_seek hfree h

/-! ### What is not seen -/

/-- `fs'` differs from `fs` neither at a location nor below it, and above it only by new directories
in which the next part can be looked up. -/
structure KeepsOff (fs fs' : FileSystem) (loc : Location) : Prop where
  above : ∀ l, l <+: loc → fs'.get? l = fs.get? l ∨
    fs.get? l = none ∧ fs'.get? l = some .directory ∧
      ∃ n, l ++ [n] <+: loc ∧ n.length ≤ nameLimit
  below : ∀ l, loc <+: l → fs'.get? l = fs.get? l

theorem KeepsOff.append (h : KeepsOff fs fs' loc) (more : Location) :
    KeepsOff fs fs' (loc ++ more) where
  above := by
    intro l hl
    have hmore := List.prefix_append loc more
    rcases List.prefix_or_prefix_of_prefix hl hmore with habove | hbelow
    · rcases h.above l habove with hsame | ⟨hnone, hnew, n, hn, hlength⟩
      · exact .inl hsame
      · exact .inr ⟨hnone, hnew, n, hn.trans hmore, hlength⟩
    · exact .inl (h.below l hbelow)
  below := fun l hl => h.below l ((List.prefix_append loc more).trans hl)

/-- In a directory that is new, the next part can be looked up. -/
theorem KeepsOff.lookup_of_new {n : Name} (h : KeepsOff fs fs' (dir ++ [n] ++ more))
    (hnone : fs.get? dir = none) (hnew : fs'.get? dir = some .directory) :
    fs'.lookup dir n = .ok (fs'.get? (dir ++ [n])) := by
  have hnext : dir ++ [n] <+: dir ++ [n] ++ more := List.prefix_append _ _
  rcases h.above dir ((List.prefix_append dir [n]).trans hnext) with hsame | ⟨-, -, m, hm, hlength⟩
  · rw [hsame, hnone] at hnew
    cases hnew
  · rw [eq_of_both_above hm hnext] at hlength
    rw [lookup, if_neg (Nat.not_lt.mpr hlength)]

/-- Behind a directory that is new there is nothing still. -/
theorem seek_of_new (h : KeepsOff fs fs' (dir ++ steps parts))
    (hnone : fs.get? dir = none) (hnew : fs'.get? dir = some .directory) :
    fs'.seek mustBeDirectory dir parts = .error .notFound := by
  induction parts generalizing dir with
  | nil =>
    have hsame := h.below dir (by simp [steps])
    rw [hsame, hnone] at hnew
    cases hnew
  | cons n rest ih =>
    rw [seek]
    by_cases hdot : n = [Path.dot]
    · rw [if_pos hdot]
      rw [hdot, steps_cons_dot] at h
      exact ih h hnone hnew
    rw [if_neg hdot]
    rw [steps_cons hdot, List.append_cons] at h
    have hnone' := get?_eq_none_of_prefix hnone (List.prefix_append dir [n])
    rw [h.lookup_of_new hnone hnew]
    rcases h.above (dir ++ [n]) (List.prefix_append _ _) with hsame | ⟨-, hnew', -⟩
    · rw [hsame, hnone']
    · rw [hnew']
      exact ih h hnone' hnew'

theorem seek_of_keepsOff (h : KeepsOff fs fs' (dir ++ steps parts)) :
    fs'.seek mustBeDirectory dir parts = fs.seek mustBeDirectory dir parts := by
  induction parts generalizing dir with
  | nil => rfl
  | cons n rest ih =>
    rw [seek, seek]
    by_cases hdot : n = [Path.dot]
    · rw [if_pos hdot, if_pos hdot]
      rw [hdot, steps_cons_dot] at h
      exact ih h
    rw [if_neg hdot, if_neg hdot]
    rw [steps_cons hdot, List.append_cons] at h
    rw [lookup, lookup]
    by_cases hlong : nameLimit < n.length
    · rw [if_pos hlong, if_pos hlong]
    · rw [if_neg hlong, if_neg hlong]
      rcases h.above (dir ++ [n]) (List.prefix_append _ _) with hsame | ⟨hnone, hnew, -⟩
      · rw [hsame]
        cases fs.get? (dir ++ [n]) with
        | none => rfl
        | some o =>
          cases o with
          | directory => exact ih h
          | file content => rfl
          | link t => rfl
      · rw [hnone, hnew]
        exact seek_of_new h hnone hnew

/-- A path from which nothing of what `fs'` has beyond `fs` is seen. -/
structure Overlooks (fs fs' : FileSystem) (p : Path) : Prop where
  noDots : dots ∉ p.parts
  keepsOff : KeepsOff fs fs' (fs.location p)

/-- It leads to what it led to before. -/
theorem find_of_overlooks (hfree : fs.LinkFree []) (hbuilds : Builds content fs fs')
    (h : Overlooks fs fs' p) : fs'.find follow p = fs.find follow p := by
  rw [find_eq_seek hfree h.noDots, find_eq_seek (hbuilds.linkFree hfree) h.noDots,
    hbuilds.workingDirectory, seek_of_keepsOff h.keepsOff]

theorem location_join (fs : FileSystem) (hp : p.bytes ≠ []) (hq : ¬ q.isAbsolute) :
    fs.location (p.join q) = fs.location p ++ steps q.parts := by
  rw [location, location, start, start, Path.isAbsolute_join hp hq, Path.parts_join hp hq,
    steps_append, List.append_assoc]

/-- Nor is anything seen further down. -/
theorem Overlooks.join (h : Overlooks fs fs' p) (hp : p.bytes ≠ []) (hq : ¬ q.isAbsolute)
    (hdots : dots ∉ q.parts) : Overlooks fs fs' (p.join q) where
  noDots := by
    rw [Path.parts_join hp hq, List.mem_append]
    exact not_or.mpr ⟨h.noDots, hdots⟩
  keepsOff := by
    rw [location_join fs hp hq]
    exact h.keepsOff.append _

end ContentTypes.FileSystem
