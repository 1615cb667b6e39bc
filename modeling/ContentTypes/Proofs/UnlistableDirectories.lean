import ContentTypes.Proofs.Accounting
import ContentTypes.Proofs.FileSystem.Files
import Mathlib
/-!
Schema directories that cannot be listed. One that is missing counts for nothing; any other failure
to resolve its path is reported once, under its origin. A regular file in its place is no failure
at all: it is listed as if it were empty, and nothing is said about it.
-/

namespace ContentTypes

variable {fs : FileSystem} {dirs : SchemaDirectories} {policy : CollisionPolicy}
  {layout : Layout} {g : Generated} {dir : Path} {e : OsError} {o : Origin}

/-! ### What is found there -/

namespace Discovery

variable {α : Type} {maxDepth : Nat} {unit? : Entry → Option α}

theorem discover_of_find_error (h : fs.find true dir = .error e) :
    discover o maxDepth unit? fs dir = .error ⟨dir, .os dir e⟩ := by
  rw [discover, Listing.list, h]

theorem discover_of_leadsToFile (h : fs.LeadsToFile dir) :
    discover o maxDepth unit? fs dir = .ok ⟨[], []⟩ := by
  obtain ⟨loc, content, h⟩ := h
  rw [discover, Listing.list, h]
  rfl

end Discovery

/-- The report that a schema directory could not be listed. -/
def Diagnostic.unlisted (o : Origin) (dir : Path) (e : OsError) : Diagnostic :=
  ⟨o, dir.display, .unlisted ⟨dir, .os dir e⟩⟩

namespace Discovered

variable {α : Type} {maxDepth : Nat} {unit? : Entry → Option α}

theorem ofResult_discover_of_isMissing (h : fs.IsMissing dir) :
    ofResult o (Discovery.discover o maxDepth unit? fs dir) = ⟨[], []⟩ := by
  rw [Discovery.discover_of_find_error h]
  rfl

theorem ofResult_discover_of_leadsToFile (h : fs.LeadsToFile dir) :
    ofResult o (Discovery.discover o maxDepth unit? fs dir) = ⟨[], []⟩ := by
  rw [Discovery.discover_of_leadsToFile h]
  rfl

theorem ofResult_discover_of_find_error (h : fs.find true dir = .error e) (he : e ≠ .notFound) :
    ofResult o (Discovery.discover o maxDepth unit? fs dir) = ⟨[], [.unlisted o dir e]⟩ := by
  have hfound : (ListError.os dir e).isNotFound = false := by
    cases e <;> first | rfl | exact absurd rfl he
  rw [Discovery.discover_of_find_error h, ofResult]
  simp only [hfound]
  rfl

end Discovered

namespace SchemaDirectories

/-- The directory that an origin is discovered in. -/
def of (dirs : SchemaDirectories) : Origin → Path
  | .entity => dirs.entities
  | .component => dirs.components

def unitCount (dirs : SchemaDirectories) (fs : FileSystem) : Origin → Nat
  | .entity => (dirs.foundEntities fs).units.length
  | .component => (dirs.foundComponents fs).units.length

/-- What the discovery of an origin reports. -/
def foundDiagnostics (dirs : SchemaDirectories) (fs : FileSystem) : Origin → List Diagnostic
  | .entity => (dirs.foundEntities fs).diagnostics
  | .component => (dirs.foundComponents fs).diagnostics

theorem tally_eq (dirs : SchemaDirectories) (fs : FileSystem) (o : Origin) :
    dirs.tally fs o = dirs.unitCount fs o + (dirs.foundDiagnostics fs o).length := by
  cases o with
  | entity => exact Discovered.tally_eq .entity _
  | component => exact Discovered.tally_eq .component _

theorem origin_of_foundDiagnostics :
    ∀ d ∈ dirs.foundDiagnostics fs o, d.origin = o := by
  cases o with
  | entity => exact dirs.origin_of_foundEntities fs
  | component => exact dirs.origin_of_foundComponents fs

theorem foundDiagnostics_sublist : (dirs.foundDiagnostics fs o).Sublist (dirs.reported fs) := by
  rw [reported, List.append_assoc]
  cases o with
  | entity => exact (List.sublist_append_left _ _).trans (List.sublist_append_left _ _)
  | component => exact (List.sublist_append_right _ _).trans (List.sublist_append_left _ _)

/-- Where a discovery finds no unit in the directory, this is all that is found for its origin. -/
theorem found_of_ofResult {ds : List Diagnostic}
    (h : ∀ (α : Type) (maxDepth : Nat) (unit? : Entry → Option α),
      Discovered.ofResult o (Discovery.discover o maxDepth unit? fs (dirs.of o)) = ⟨[], ds⟩) :
    dirs.unitCount fs o = 0 ∧ dirs.foundDiagnostics fs o = ds := by
  cases o with
  | entity =>
    have hfound : dirs.foundEntities fs = ⟨[], ds⟩ := h _ _ _
    simp [unitCount, foundDiagnostics, hfound]
  | component =>
    have hfound : dirs.foundComponents fs = ⟨[], ds⟩ := h _ _ _
    simp [unitCount, foundDiagnostics, hfound]

end SchemaDirectories

/-! ### What is reported -/

namespace Generated

def diagnosticsOf (g : Generated) (o : Origin) : List Diagnostic :=
  g.diagnostics.filter (·.origin = o)

/-- Where no unit was found, nothing is reported after discovery. -/
theorem diagnosticsOf_of_unitCount (h : generate fs dirs policy layout = .ok g)
    (hunits : dirs.unitCount fs o = 0) : g.diagnosticsOf o = dirs.foundDiagnostics fs o := by
  have hsub : (dirs.foundDiagnostics fs o).Sublist (g.diagnosticsOf o) := by
    have hall : (dirs.foundDiagnostics fs o).filter (·.origin = o)
        = dirs.foundDiagnostics fs o := by
      rw [List.filter_eq_self]
      intro d hd
      simpa using SchemaDirectories.origin_of_foundDiagnostics d hd
    obtain ⟨r, -, rfl⟩ := exists_resolve_of_generate h
    rw [← hall]
    exact (SchemaDirectories.foundDiagnostics_sublist.trans
      (List.sublist_append_left _ _)).filter _
  have hcount := count_add_skippedOf h o
  rw [SchemaDirectories.tally_eq, hunits] at hcount
  have hlength : (g.diagnosticsOf o).length = g.skippedOf o := rfl
  exact (hsub.eq_of_length_le (by omega)).symm

theorem exists_origin_iff (g : Generated) (o : Origin) :
    (∃ d ∈ g.diagnostics, d.origin = o) ↔ g.diagnosticsOf o ≠ [] := by
  rw [diagnosticsOf, ne_eq, List.filter_eq_nil_iff]
  simp

end Generated

/-- A generation succeeds unless a collision is refused, and then says of each schema directory all
that there is to say. One that cannot be resolved, a path through a file among them, has one
report; one that is missing has none; neither has units. One that is there and is no directory is
reported exactly if it is not a regular file. -/
theorem unlistable_reported_iff_not_file (fs : FileSystem) (dirs : SchemaDirectories)
    (layout : Layout) :
    (∀ policy ≠ .error, ∃ g, generate fs dirs policy layout = .ok g) ∧
    ∀ policy g, generate fs dirs policy layout = .ok g → ∀ o,
      (fs.RunsThroughFile (dirs.of o) → ∃ e ≠ .notFound, fs.find true (dirs.of o) = .error e) ∧
      (∀ e ≠ .notFound, fs.find true (dirs.of o) = .error e →
        dirs.unitCount fs o = 0 ∧ g.diagnosticsOf o = [.unlisted o (dirs.of o) e]) ∧
      (fs.IsMissing (dirs.of o) → dirs.unitCount fs o = 0 ∧ g.diagnosticsOf o = []) ∧
      (¬ fs.IsMissing (dirs.of o) → ¬ fs.LeadsToDirectory (dirs.of o) →
        ((∃ d ∈ g.diagnostics, d.origin = o) ↔ ¬ fs.LeadsToFile (dirs.of o))) := by
  refine ⟨?succeeds, ?reports⟩
  case succeeds =>
    intro policy hp
    obtain ⟨r, hr⟩ := Collision.exists_resolve hp (dirs.collected fs)
    exact ⟨_, generate_of_resolve layout hr⟩
  case reports =>
    intro policy g h o
    have hfailed : ∀ e ≠ .notFound, fs.find true (dirs.of o) = .error e →
        dirs.unitCount fs o = 0 ∧ g.diagnosticsOf o = [.unlisted o (dirs.of o) e] := by
      intro e he hfind
      obtain ⟨hunits, hfound⟩ := SchemaDirectories.found_of_ofResult fun _ _ _ =>
        Discovered.ofResult_discover_of_find_error hfind he
      exact ⟨hunits, (Generated.diagnosticsOf_of_unitCount h hunits).trans hfound⟩
    refine ⟨?_, hfailed, ?_, ?_⟩
    · intro hthrough
      obtain ⟨e, hfind, he⟩ := FileSystem.find_of_runsThroughFile hthrough
      exact ⟨e, he, hfind⟩
    · intro hmissing
      obtain ⟨hunits, hfound⟩ := SchemaDirectories.found_of_ofResult fun _ _ _ =>
        Discovered.ofResult_discover_of_isMissing hmissing
      exact ⟨hunits, (Generated.diagnosticsOf_of_unitCount h hunits).trans hfound⟩
    · intro hthere hdirectory
      rw [Generated.exists_origin_iff]
      rcases fs.find_cases (dirs.of o) with hlist | hfile | hmissing | ⟨e, hfind, he⟩
      · exact absurd hlist hdirectory
      · obtain ⟨hunits, hfound⟩ := SchemaDirectories.found_of_ofResult fun _ _ _ =>
          Discovered.ofResult_discover_of_leadsToFile hfile
        have hnone := (Generated.diagnosticsOf_of_unitCount h hunits).trans hfound
        exact iff_of_false (not_not_intro hnone) (not_not_intro hfile)
      · exact absurd hmissing hthere
      · refine iff_of_true (by simp [(hfailed e he hfind).2]) ?_
        rintro ⟨loc, content, hfile⟩
        rw [hfind] at hfile
        cases hfile

/-! ### A file in the place of a directory -/

/-- One empty file at `/api`, and nothing else. -/
def FileSystem.fileAtApi : FileSystem :=
  ofObjects [([utf8 "api"], .file .empty)] (by decide) (by decide)

theorem leadsToFile_fileAtApi : FileSystem.fileAtApi.LeadsToFile (.ofString "/api") :=
  ⟨[utf8 "api"], .empty, by cbv⟩

theorem isMissing_fileAtApi : FileSystem.fileAtApi.IsMissing (.ofString "/components") := by
  cbv

theorem unlisted_below_fileAtApi :
    ∃ g, generate .fileAtApi ⟨.ofString "/api/v1", .ofString "/components"⟩ .firstWins .pretty
        = .ok g ∧
      FileSystem.fileAtApi.RunsThroughFile (.ofString "/api/v1") ∧
      FileSystem.fileAtApi.IsMissing (.ofString "/components") ∧
      (∃ e ≠ .notFound, g.diagnosticsOf .entity = [.unlisted .entity (.ofString "/api/v1") e]) ∧
      g.diagnosticsOf .component = [] := by
  obtain ⟨hsucceeds, hreports⟩ := unlistable_reported_iff_not_file .fileAtApi
    ⟨.ofString "/api/v1", .ofString "/components"⟩ .pretty
  obtain ⟨g, hg⟩ := hsucceeds .firstWins (by decide)
  have hthrough : FileSystem.fileAtApi.RunsThroughFile (.ofString "/api/v1") :=
    ⟨utf8 "/api", utf8 "v1", by decide, leadsToFile_fileAtApi⟩
  obtain ⟨hfails, hfailed, -, -⟩ := hreports _ g hg .entity
  obtain ⟨-, -, hnone, -⟩ := hreports _ g hg .component
  obtain ⟨e, he, hfind⟩ := hfails hthrough
  exact ⟨g, hg, hthrough, isMissing_fileAtApi, ⟨e, he, (hfailed e he hfind).2⟩,
    (hnone isMissing_fileAtApi).2⟩

/-- A regular file in the place of a schema directory is there and is no directory, and nothing is
reported. -/
theorem fileAtApi_not_reported :
    FileSystem.fileAtApi.LeadsToFile SchemaDirectories.atRoot.entities ∧
      ¬ FileSystem.fileAtApi.LeadsToDirectory SchemaDirectories.atRoot.entities ∧
      ¬ FileSystem.fileAtApi.IsMissing SchemaDirectories.atRoot.entities ∧
      ∃ g, generate .fileAtApi .atRoot .firstWins .pretty = .ok g ∧ g.diagnostics = [] := by
  have hfind : FileSystem.fileAtApi.find true (.ofString "/api")
      = .ok ([utf8 "api"], .file .empty) := by cbv
  refine ⟨leadsToFile_fileAtApi, ?_, ?_, ?_⟩
  · rintro ⟨loc, h⟩
    cases hfind.symm.trans h
  · intro h
    cases hfind.symm.trans h
  · have he : SchemaDirectories.atRoot.foundEntities .fileAtApi = ⟨[], []⟩ :=
      Discovered.ofResult_discover_of_leadsToFile leadsToFile_fileAtApi
    have hc : SchemaDirectories.atRoot.foundComponents .fileAtApi = ⟨[], []⟩ :=
      Discovered.ofResult_discover_of_isMissing isMissing_fileAtApi
    rw [generate_eq, SchemaDirectories.collected, SchemaDirectories.reported,
      SchemaDirectories.entityWalk, SchemaDirectories.componentWalk, he, hc]
    exact ⟨_, rfl, rfl⟩

end ContentTypes
