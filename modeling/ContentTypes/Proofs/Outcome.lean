import ContentTypes.Command
import ContentTypes.Proofs.Destination
import ContentTypes.Proofs.Generation
import ContentTypes.Proofs.Resolution
import Mathlib
/-!
What a run comes to. A run gets ready by settling its root, loading its layers and generating from
the settings that they give; if one of these fails it ends with nothing changed. Otherwise it
attempts every destination with the same text, and only then do failed attempts and the strict check
decide its exit code.
-/

namespace ContentTypes.Command

open Destination

variable {fs fs' : FileSystem} {env : Environment} {a : Arguments} {base : Path} {config : Config}
  {g : Generated}

/-- The settings of a run with its root at `base` whose sources come to this layer. -/
def settings (base : Path) (a : Arguments) (config : Config) : Settings :=
  (config.merge a.overrides).settings base

def Loads (fs : FileSystem) (env : Environment) (base : Path) (a : Arguments) (config : Config) :
    Prop :=
  (Config.load fs env base a.config).config = .ok config

def Generates (fs : FileSystem) (s : Settings) (g : Generated) : Prop :=
  generate fs s.schemas s.onCollision s.layout = .ok g

/-- A run gets ready: it has a root, its layers load, and it generates `g` from the settings they
give. -/
structure Prepares (fs : FileSystem) (env : Environment) (a : Arguments) (base : Path)
    (config : Config) (g : Generated) : Prop where
  root : Command.root fs a = .ok base
  loads : Loads fs env base a config
  generates : Generates fs (settings base a config) g

/-- What is reported before anything is written. -/
def preparationEvents (fs : FileSystem) (env : Environment) (base : Path) (a : Arguments) :
    List Log.Event :=
  a.unknownTargets.map unknownTarget
    ++ (Config.load fs env base a.config).files.map loadedFile

/-- A run has a root if one is named, or else if its working directory is there. -/
theorem exists_root_iff : (∃ base, root fs a = .ok base) ↔
    a.root.isSome ∨ fs.get? fs.workingDirectory = some .directory := by
  rw [root]
  cases a.root with
  | some path => simp
  | none =>
    rw [FileSystem.workingPath]
    split_ifs with hworking
    · refine iff_of_true ?_ (.inr hworking)
      cases fs.workingDirectory <;> exact ⟨_, rfl⟩
    · simp [hworking]

theorem run_of_root_error {e : OsError} (h : root fs a = .error e) :
    (run fs env a).fileSystem = fs ∧ (run fs env a).exitCode = failed := by
  rw [run, h]
  exact ⟨rfl, rfl⟩

theorem run_of_prepares (h : Prepares fs env a base config g) :
    run fs env a
      = finish fs a (settings base a config) g (preparationEvents fs env base a) := by
  have hconfig := h.loads
  have hg := h.generates
  rw [Loads] at hconfig
  rw [Generates, settings] at hg
  rw [run, h.root]
  simp only [hconfig, hg]
  rfl

/-- A run that does not get ready changes nothing. -/
theorem run_of_not_prepares (h : ¬ ∃ base config g, Prepares fs env a base config g) :
    (run fs env a).fileSystem = fs ∧ (run fs env a).exitCode = failed := by
  cases hroot : root fs a with
  | error e => exact run_of_root_error hroot
  | ok base =>
    rw [run, hroot]
    dsimp only
    cases hconfig : (Config.load fs env base a.config).config with
    | error e => exact ⟨rfl, rfl⟩
    | ok config =>
      dsimp only
      cases hg : generate fs (settings base a config).schemas
          (settings base a config).onCollision (settings base a config).layout with
      | error e =>
        rw [settings] at hg
        simp only [hg]
        trivial
      | ok g => exact absurd ⟨base, config, g, hroot, hconfig, hg⟩ h

/-! ### After a preparation -/

theorem fileSystem_of_prepares (h : Prepares fs env a base config g) :
    (run fs env a).fileSystem = afterAll fs (settings base a config).fileName g.text
      (destinations (settings base a config)) := by
  rw [run_of_prepares h, finish, ← fst_writeAll]

theorem refuses_eq_false_iff : refuses a g = false ↔ (a.strict = true → g.diagnostics = []) := by
  rw [refuses, Generated.skipped, Bool.and_eq_false_imp, decide_eq_false_iff_not,
    List.length_pos_iff, not_not]

theorem exitCode_of_prepares (h : Prepares fs env a base config g) :
    (run fs env a).exitCode = succeeded ↔
      AllWritten fs (settings base a config).fileName g.text
          (destinations (settings base a config)) ∧
        (a.strict = true → g.diagnostics = []) := by
  rw [run_of_prepares h, finish, ← all_writeAll_iff, ← refuses_eq_false_iff]
  dsimp only
  split_ifs with hok
  · simpa using hok
  · simpa [succeeded, failed] using hok

theorem event_mem_of_prepares (h : Prepares fs env a base config g) {front back : List Destination}
    {d : Destination} (hd : destinations (settings base a config) = front ++ d :: back) :
    Attempt.event ⟨d, resultAfter fs (settings base a config).fileName g.text front d⟩
      ∈ (run fs env a).events := by
  have hmem : (⟨d, resultAfter fs (settings base a config).fileName g.text front d⟩ : Attempt)
      ∈ (writeAll fs (settings base a config).fileName g.text
        (destinations (settings base a config))).2 :=
    mem_writeAll_iff.mpr ⟨front, d, back, hd, rfl⟩
  rw [run_of_prepares h, finish]
  simp only [List.mem_append, List.mem_map]
  exact .inl (.inr ⟨_, hmem, rfl⟩)

/-! ### Ready or not -/

/-- Only a refused collision stops a generation. -/
theorem exists_generates_iff {s : Settings} :
    (∃ g, Generates fs s g) ↔
      (s.onCollision = .error → (Collision.names (s.schemas.collected fs)).Nodup) := by
  rw [← Collision.exists_resolve_iff]
  constructor
  · rintro ⟨g, hg⟩
    obtain ⟨r, hr, -⟩ := exists_resolve_of_generate hg
    exact ⟨r, hr⟩
  · rintro ⟨r, hr⟩
    exact ⟨_, generate_of_resolve s.layout hr⟩

/-- The frontend gets the text if a target asks for it or the layers do. -/
theorem destinations_settings (base : Path) (a : Arguments) (config : Config) :
    destinations (settings base a config)
      = ⟨"backend", (settings base a config).backendOut⟩ ::
          if Arguments.frontendTarget ∈ a.targets ∨ config.frontend = some true then
            [⟨"frontend", (settings base a config).frontendOut⟩]
          else [] := by
  have hfrontend : (settings base a config).frontend = true ↔
      Arguments.frontendTarget ∈ a.targets ∨ config.frontend = some true := by
    rw [settings, Config.settings, Config.merge, Arguments.overrides]
    by_cases htarget : Arguments.frontendTarget ∈ a.targets
    · simp [htarget]
    · cases config.frontend <;> simp [htarget]
  rw [destinations, if_congr hfrontend rfl rfl]

/-- What is written in its turn can be read when the run is over. -/
theorem readText_of_prepares (h : Prepares fs env a base config g) {front back : List Destination}
    {d : Destination} (hd : destinations (settings base a config) = front ++ d :: back)
    {path : Path}
    (hpath : resultAfter fs (settings base a config).fileName g.text front d = .ok path) :
    path = d.filePath (settings base a config).fileName ∧
      (run fs env a).fileSystem.readText path = .ok g.text := by
  obtain ⟨rfl, hholds⟩ := holds_afterAll hpath back
  obtain ⟨loc, hfind⟩ := hholds.file
  refine ⟨rfl, ?_⟩
  rw [fileSystem_of_prepares h, hd]
  exact FileSystem.readText_of_find hfind

/-- A run succeeds exactly if it gets ready, writes every destination and has nothing to refuse. A
run that does not get ready changes nothing; one that does attempts all destinations with the same
text, whatever becomes of each, and what it wrote can be read in the end. -/
theorem run_outcome (fs : FileSystem) (env : Environment) (a : Arguments) :
    ((run fs env a).exitCode = succeeded ↔ ∃ base config g, Prepares fs env a base config g ∧
      AllWritten fs (settings base a config).fileName g.text
        (destinations (settings base a config)) ∧
      (a.strict = true → g.diagnostics = [])) ∧
    ((¬ ∃ base config g, Prepares fs env a base config g) → (run fs env a).fileSystem = fs) ∧
    ∀ base config, root fs a = .ok base → Loads fs env base a config →
      let s := settings base a config
      ((∃ g, Prepares fs env a base config g) ↔
        (s.onCollision = .error → (Collision.names (s.schemas.collected fs)).Nodup)) ∧
      (destinations s = ⟨"backend", s.backendOut⟩ ::
        if Arguments.frontendTarget ∈ a.targets ∨ config.frontend = some true then
          [⟨"frontend", s.frontendOut⟩]
        else []) ∧
      ∀ g, Prepares fs env a base config g →
        (run fs env a).fileSystem = afterAll fs s.fileName g.text (destinations s) ∧
        ∀ front d back, destinations s = front ++ d :: back →
          Attempt.event ⟨d, resultAfter fs s.fileName g.text front d⟩ ∈ (run fs env a).events ∧
          ∀ path, resultAfter fs s.fileName g.text front d = .ok path →
            path = d.filePath s.fileName ∧
              (run fs env a).fileSystem.readText path = .ok g.text := by
  refine ⟨?exitCode, fun h => (run_of_not_prepares h).1, ?prepared⟩
  case exitCode =>
    constructor
    · intro hcode
      by_cases hprepared : ∃ base config g, Prepares fs env a base config g
      · obtain ⟨base, config, g, h⟩ := hprepared
        exact ⟨base, config, g, h, (exitCode_of_prepares h).mp hcode⟩
      · rw [(run_of_not_prepares hprepared).2] at hcode
        cases hcode
    · rintro ⟨base, config, g, h, hwritten⟩
      exact (exitCode_of_prepares h).mpr hwritten
  case prepared =>
    intro base config hroot hconfig s
    refine ⟨?_, destinations_settings base a config, ?_⟩
    · rw [← exists_generates_iff]
      exact exists_congr fun g => ⟨fun h => h.generates, fun hg => ⟨hroot, hconfig, hg⟩⟩
    · intro g h
      refine ⟨fileSystem_of_prepares h, ?_⟩
      intro front d back hd
      exact ⟨event_mem_of_prepares h hd, fun path hpath => readText_of_prepares h hd hpath⟩

/-! ### A destination that cannot be written -/

/-- The directory of the frontend is where the file of the backend goes. -/
def blockedFrontend : Arguments where
  targets := [Arguments.frontendTarget]
  out := some (.ofString "/types")
  frontendOut := some (.ofString "/types/types.ts")

/-- A file of settings that has to be there. -/
def missingSettings : Arguments where
  config := some (.ofString "/settings.toml")

/-- Nothing is named, not even a root. -/
def bareArguments : Arguments := {}

/-- The backend keeps its text although the run fails for the frontend; without the file of
settings, or without a root, nothing is made at all. -/
theorem run_blockedFrontend :
    (∃ g, Prepares .empty ⟨none, none, none⟩ blockedFrontend (.ofString "/") .empty g ∧
      (run .empty ⟨none, none, none⟩ blockedFrontend).fileSystem.readText
        (.ofString "/types/types.ts") = .ok g.text ∧
      (run .empty ⟨none, none, none⟩ blockedFrontend).exitCode ≠ succeeded) ∧
    (run .empty ⟨none, none, none⟩ missingSettings).fileSystem = .empty ∧
    (run .stranded ⟨none, none, none⟩ bareArguments).fileSystem = .stranded ∧
    (run .stranded ⟨none, none, none⟩ bareArguments).exitCode ≠ succeeded := by
  have hroot : root .empty blockedFrontend = .ok (.ofString "/") := by decide
  have hloads : Loads .empty ⟨none, none, none⟩ (.ofString "/") blockedFrontend .empty := by cbv
  have hdestinations : destinations (settings (.ofString "/") blockedFrontend .empty)
      = [⟨"backend", .ofString "/types"⟩, ⟨"frontend", .ofString "/types/types.ts"⟩] := by decide
  have hbackend (text : String) : resultAfter .empty "types.ts" text []
      ⟨"backend", .ofString "/types"⟩ = .ok (.ofString "/types/types.ts") := by cbv
  have hfrontend (text : String) :
      resultAfter .empty "types.ts" text [⟨"backend", .ofString "/types"⟩]
        ⟨"frontend", .ofString "/types/types.ts"⟩
      = .error (.directory (.ofString "/types/types.ts") .alreadyExists) := by cbv
  obtain ⟨hcode, -, hprepared⟩ := run_outcome .empty ⟨none, none, none⟩ blockedFrontend
  obtain ⟨hready, -, hwrites⟩ := hprepared (.ofString "/") .empty hroot hloads
  refine ⟨?blocked, ?missing, ?stranded⟩
  case blocked =>
    obtain ⟨g, hg⟩ := hready.mpr fun hpolicy => by cases hpolicy
    obtain ⟨-, hattempts⟩ := hwrites g hg
    obtain ⟨-, hread⟩ := hattempts [] _ _ hdestinations
    refine ⟨g, hg, (hread _ (hbackend g.text)).2, ?_⟩
    intro hsucceeded
    obtain ⟨base, config, g', h', hwritten, -⟩ := hcode.mp hsucceeded
    cases Except.ok.inj (hroot.symm.trans h'.root)
    cases Except.ok.inj (hloads.symm.trans h'.loads)
    obtain ⟨path, hpath⟩ := hwritten [⟨"backend", .ofString "/types"⟩] _ [] hdestinations
    cases (hfrontend g'.text).symm.trans hpath
  case missing =>
    obtain ⟨-, hunchanged, -⟩ := run_outcome .empty ⟨none, none, none⟩ missingSettings
    apply hunchanged
    rintro ⟨base, config, g, h⟩
    have hroot' : root .empty missingSettings = .ok (.ofString "/") := by decide
    cases Except.ok.inj (hroot'.symm.trans h.root)
    have hfails : (Config.load .empty ⟨none, none, none⟩ (.ofString "/")
        missingSettings.config).config = .error (.missing (.ofString "/settings.toml")) := by
      cbv
    cases hfails.symm.trans h.loads
  case stranded =>
    have hgone : root .stranded bareArguments = .error .notFound := by decide
    obtain ⟨hcode, hunchanged, -⟩ := run_outcome .stranded ⟨none, none, none⟩ bareArguments
    refine ⟨hunchanged ?_, fun hsucceeded => ?_⟩
    · rintro ⟨base, config, g, h⟩
      cases hgone.symm.trans h.root
    · obtain ⟨base, config, g, h, -⟩ := hcode.mp hsucceeded
      cases hgone.symm.trans h.root

end ContentTypes.Command
