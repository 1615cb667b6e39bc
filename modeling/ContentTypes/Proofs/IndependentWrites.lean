import ContentTypes.Proofs.Destination
import Mathlib
/-!
Destinations that do not get in each other's way. However they overlap, every one is attempted in
its turn, what was written to it is there in the end, and no other file that was there before has
changed.
-/

namespace ContentTypes.Destination

open FileSystem

variable {fs : FileSystem} {ds : List Destination} {fileName text : String}

/-- What becomes of the destination at a position, after all in front of it. -/
def resultAt (fs : FileSystem) (fileName text : String) (ds : List Destination)
    (i : Fin ds.length) : Except WriteError Path :=
  resultAfter fs fileName text (ds.take i) ds[i]

/-- There is one attempt for each destination, in their order. -/
theorem snd_writeAll (fs : FileSystem) (fileName text : String) (ds : List Destination) :
    (writeAll fs fileName text ds).2
      = List.ofFn fun i => (⟨ds[i], resultAt fs fileName text ds i⟩ : Attempt) := by
  induction ds generalizing fs with
  | nil => rfl
  | cons d ds ih =>
    rw [writeAll, List.ofFn_succ]
    simp only [ih]
    rfl

/-- As many attempts fail as there are destinations that cannot be written in their turn. -/
theorem length_filter_failed (fs : FileSystem) (fileName text : String) (ds : List Destination) :
    ((writeAll fs fileName text ds).2.filter (·.failed)).length
      = (Finset.univ.filter fun i => (resultAt fs fileName text ds i).isOk = false).card := by
  have hfailed (attempt : Attempt) : attempt.failed = true ↔ attempt.result.isOk = false := by
    obtain ⟨d, result⟩ := attempt
    cases result <;> simp [Attempt.failed, Except.isOk, Except.toBool]
  have hpositions : (Finset.univ.filter fun i => (resultAt fs fileName text ds i).isOk = false)
      = ((List.finRange ds.length).filter fun i =>
          Attempt.failed ⟨ds[i], resultAt fs fileName text ds i⟩).toFinset := by
    ext i
    simp [hfailed]
  rw [hpositions, List.toFinset_card_of_nodup ((List.nodup_finRange _).filter _), snd_writeAll,
    List.ofFn_eq_map, List.filter_map, List.length_map]
  rfl

theorem eq_take_append_cons_drop (ds : List Destination) (i : Fin ds.length) :
    ds = ds.take i ++ ds[i] :: ds.drop (i + 1) := by
  rw [Fin.getElem_fin, List.getElem_cons_drop, List.take_append_drop]

theorem exists_resultAt {front back : List Destination} {d : Destination}
    (h : ds = front ++ d :: back) :
    ∃ i, resultAt fs fileName text ds i = resultAfter fs fileName text front d := by
  subst h
  exact ⟨⟨front.length, by simp⟩, by simp [resultAt]⟩

/-- What was written in its turn is in order when all destinations have been attempted. -/
theorem holds_of_resultAt {i : Fin ds.length} {path : Path}
    (h : resultAt fs fileName text ds i = .ok path) :
    path = ds[i].filePath fileName ∧ ds[i].Holds (afterAll fs fileName text ds) fileName text := by
  have hholds := holds_afterAll h (ds.drop (i + 1))
  rwa [← eq_take_append_cons_drop ds i] at hholds

/-- A file is as it was before, unless a destination was written to its location. -/
theorem get?_afterAll_of_file {loc : Location} {content : ByteArray}
    (hfile : fs.get? loc = some (.file content))
    (hother : ∀ i path, resultAt fs fileName text ds i = .ok path →
      ∀ o, (afterAll fs fileName text ds).find true path ≠ .ok (loc, o)) :
    (afterAll fs fileName text ds).get? loc = some (.file content) := by
  -- a file stays a file whatever is attempted, so that only its content is in question
  obtain ⟨o, ho, hbecomes⟩ := (builds_afterAll fs fileName text ds).covers.get? loc _ hfile
  cases hbecomes with
  | file =>
    rcases file_cases ho with hbefore | ⟨front, d, back, path, hds, hpath, hfind⟩
    · rw [ho, ← hbefore, hfile]
    · obtain ⟨i, hi⟩ := exists_resultAt hds
      exact absurd hfind (hother i path (hi.trans hpath) _)

/-- Every destination is attempted once, in its turn, and as many attempts are counted as failed as
there are destinations that cannot be written then. What was written to a destination is there in
the end, whatever was attempted before or after it. A file that was there before is as it was, and
found wherever it was found, unless a destination was written to its location. -/
theorem writes_are_independent (fs : FileSystem) (fileName text : String)
    (ds : List Destination) :
    let after := (writeAll fs fileName text ds).1
    ((writeAll fs fileName text ds).2
      = List.ofFn fun i => (⟨ds[i], resultAt fs fileName text ds i⟩ : Attempt)) ∧
    ((writeAll fs fileName text ds).2.filter (·.failed)).length
      = (Finset.univ.filter fun i => (resultAt fs fileName text ds i).isOk = false).card ∧
    (∀ i path, resultAt fs fileName text ds i = .ok path →
      path = ds[i].filePath fileName ∧ after.readText path = .ok text) ∧
    ∀ loc content, fs.get? loc = some (.file content) →
      (∀ i path, resultAt fs fileName text ds i = .ok path →
        ∀ o, after.find true path ≠ .ok (loc, o)) →
      after.get? loc = some (.file content) ∧
        ∀ p, fs.find true p = .ok (loc, .file content) →
          after.find true p = .ok (loc, .file content) := by
  intro after
  have hafter : after = afterAll fs fileName text ds := fst_writeAll fs fileName text ds
  refine ⟨snd_writeAll fs fileName text ds, length_filter_failed fs fileName text ds, ?sticks,
    ?frame⟩
  case sticks =>
    intro i path hpath
    obtain ⟨rfl, hholds⟩ := holds_of_resultAt hpath
    obtain ⟨loc, hfind⟩ := hholds.file
    rw [hafter]
    exact ⟨rfl, readText_of_find hfind⟩
  case frame =>
    intro loc content hfile hother
    rw [hafter] at hother ⊢
    have hsame := get?_afterAll_of_file hfile hother
    refine ⟨hsame, ?_⟩
    intro p hp
    obtain ⟨o, hfind, hbecomes⟩ := find_of_covers (builds_afterAll fs fileName text ds).covers hp
    cases hbecomes with
    | file => rw [hfind, ← Option.some_inj.mp (hsame.symm.trans (get?_of_find_file hfind))]

/-- An empty file at `/blocker`, and nothing else. -/
def onlyBlocker : FileSystem :=
  .ofObjects [([utf8 "blocker"], .file .empty)] (by decide) (by decide)

/-- A directory, one below the blocker, one below the file that goes to the first, and the first
by another name. -/
def tangled : List Destination :=
  [⟨"backend", .ofString "/out"⟩, ⟨"blocked", .ofString "/blocker/types"⟩,
    ⟨"nested", .ofString "/out/types.ts"⟩, ⟨"alias", .ofString "/out/../out"⟩]

theorem resultAt_tangled_written :
    resultAt onlyBlocker "types.ts" "x" tangled ⟨0, by decide⟩ = .ok (.ofString "/out/types.ts") ∧
    resultAt onlyBlocker "types.ts" "x" tangled ⟨3, by decide⟩
      = .ok (.ofString "/out/../out/types.ts") := by
  constructor <;> cbv

theorem resultAt_tangled_blocked :
    resultAt onlyBlocker "types.ts" "x" tangled ⟨1, by decide⟩
      = .error (.directory (.ofString "/blocker/types") .notDirectory) ∧
    resultAt onlyBlocker "types.ts" "x" tangled ⟨2, by decide⟩
      = .error (.directory (.ofString "/out/types.ts") .alreadyExists) := by
  constructor <;> cbv

/-- The second and the third of them cannot be written. -/
theorem resultAt_tangled (i : Fin 4) :
    resultAt onlyBlocker "types.ts" "x" tangled i
      = ![.ok (.ofString "/out/types.ts"),
          .error (.directory (.ofString "/blocker/types") .notDirectory),
          .error (.directory (.ofString "/out/types.ts") .alreadyExists),
          .ok (.ofString "/out/../out/types.ts")] i := by
  obtain ⟨h0, h3⟩ := resultAt_tangled_written
  obtain ⟨h1, h2⟩ := resultAt_tangled_blocked
  fin_cases i
  exacts [h0, h1, h2, h3]

/-- Both that can be written are one file. -/
theorem find_tangled {path : Path}
    (h : path = .ofString "/out/types.ts" ∨ path = .ofString "/out/../out/types.ts") :
    (writeAll onlyBlocker "types.ts" "x" tangled).1.find true path
      = .ok ([utf8 "out", utf8 "types.ts"], .file "x".toUTF8) := by
  rcases h with rfl | rfl <;> cbv

theorem write_tangled :
    resultAt onlyBlocker "types.ts" "x" tangled (0 : Fin 4) = .ok (.ofString "/out/types.ts") ∧
    resultAt onlyBlocker "types.ts" "x" tangled (3 : Fin 4)
      = .ok (.ofString "/out/../out/types.ts") ∧
    ((writeAll onlyBlocker "types.ts" "x" tangled).2.filter (·.failed)).length = 2 ∧
    (writeAll onlyBlocker "types.ts" "x" tangled).1.readText (.ofString "/out/types.ts")
      = .ok "x" ∧
    (writeAll onlyBlocker "types.ts" "x" tangled).1.get? [utf8 "blocker"]
      = some (.file .empty) := by
  have h0 := resultAt_tangled 0
  have h3 := resultAt_tangled 3
  obtain ⟨-, hfailed, hsticks, hframe⟩ := writes_are_independent onlyBlocker "types.ts" "x" tangled
  refine ⟨h0, h3, ?failed, (hsticks _ _ h0).2, ?frame⟩
  case failed =>
    rw [hfailed]
    change (Finset.univ.filter fun i : Fin 4 => (resultAt _ _ _ tangled i).isOk = false).card = 2
    simp only [resultAt_tangled]
    decide
  case frame =>
    refine (hframe [utf8 "blocker"] .empty (by cbv) ?_).1
    intro (i : Fin 4) path hpath o ho
    rw [resultAt_tangled] at hpath
    have hwritten : path = .ofString "/out/types.ts" ∨ path = .ofString "/out/../out/types.ts" := by
      fin_cases i <;> cases hpath <;> simp
    cases ho.symm.trans (find_tangled hwritten)

end ContentTypes.Destination
