import ContentTypes.Proofs.Outcome
import Mathlib
/-!
Layers of configuration. Each of the eight values is decided on its own, by the last layer that
sets it. A run has three layers, the flags above the file of the project and that above the file of
the user; it needs both files to be sound, even where nothing in them counts.
-/

namespace ContentTypes

namespace Config

theorem merge_assoc (c d e : Config) : (c.merge d).merge e = c.merge (d.merge e) := by
  simp [merge, Option.or_assoc]

theorem mergeAll_concat (cs : List Config) (c : Config) :
    mergeAll (cs ++ [c]) = (mergeAll cs).merge c := by
  simp [mergeAll]

/-! ### One value of many layers -/

section
variable {α : Type} {value : Config → Option α}

/-- What the last layer says that says something about a value. -/
def lastSet (cs : List Config) (value : Config → Option α) : Option α :=
  (cs.filterMap value).getLast?

theorem lastSet_append (cs ds : List Config) (value : Config → Option α) :
    lastSet (cs ++ ds) value = (lastSet ds value <|> lastSet cs value) := by
  simp [lastSet, List.filterMap_append, List.getLast?_append]

theorem lastSet_toList (c : Option Config) (value : Config → Option α) :
    lastSet c.toList value = c.bind value := by
  cases c with
  | none => rfl
  | some c => cases hc : value c <;> simp [lastSet, hc]

/-- A value that two layers decide without a look at any other value. -/
structure IsDecidedAlone (value : Config → Option α) : Prop where
  empty : value .empty = none
  merge : ∀ c d, value (c.merge d) = (value d <|> value c)

theorem IsDecidedAlone.mergeAll (h : IsDecidedAlone value) (cs : List Config) :
    value (mergeAll cs) = lastSet cs value := by
  induction cs using List.reverseRecOn with
  | nil => exact h.empty
  | append_singleton cs c ih =>
    have hc : lastSet [c] value = value c := lastSet_toList (some c) value
    rw [mergeAll_concat, h.merge, lastSet_append, hc, ih]

end

/-- Settings whose values are looked up one by one; what is not found has a default. -/
def settingsBy (root : Path) (look : {α : Type} → (Config → Option α) → Option α) :
    Settings where
  schemas :=
    { entities := place root (look (·.entities)) ((root.child "src").child "api")
      components := place root (look (·.components)) ((root.child "src").child "components") }
  backendOut := place root (look (·.backendOut)) ((root.child "src").child "types")
  frontendOut := place root (look (·.frontendOut))
    ((((root.child "..").child "frontend").child "src").child "types")
  fileName := (look (·.fileName)).getD "types.ts"
  frontend := (look (·.frontend)).getD false
  layout := (look (·.layout)).getD .pretty
  onCollision := (look (·.onCollision)).getD .firstWins

theorem settings_mergeAll (cs : List Config) (root : Path) :
    (mergeAll cs).settings root = settingsBy root (lastSet cs) := by
  have hentities : IsDecidedAlone (·.entities) := ⟨rfl, fun _ _ => rfl⟩
  have hcomponents : IsDecidedAlone (·.components) := ⟨rfl, fun _ _ => rfl⟩
  have hbackendOut : IsDecidedAlone (·.backendOut) := ⟨rfl, fun _ _ => rfl⟩
  have hfrontendOut : IsDecidedAlone (·.frontendOut) := ⟨rfl, fun _ _ => rfl⟩
  have hfileName : IsDecidedAlone (·.fileName) := ⟨rfl, fun _ _ => rfl⟩
  have hfrontend : IsDecidedAlone (·.frontend) := ⟨rfl, fun _ _ => rfl⟩
  have hlayout : IsDecidedAlone (·.layout) := ⟨rfl, fun _ _ => rfl⟩
  have honCollision : IsDecidedAlone (·.onCollision) := ⟨rfl, fun _ _ => rfl⟩
  rw [settings, hentities.mergeAll, hcomponents.mergeAll, hbackendOut.mergeAll,
    hfrontendOut.mergeAll, hfileName.mergeAll, hfrontend.mergeAll, hlayout.mergeAll,
    honCollision.mergeAll]
  rfl

/-! ### Layers from files -/

variable {fs : FileSystem} {s : Source} {sources : List Source}

/-- A source that stops every run: its file cannot be read or says something else than settings.
Only a file that may be missing is none when it is not found. -/
def Source.IsUnsound (fs : FileSystem) (s : Source) : Prop :=
  (∃ e, fs.readText s.path = .error e ∧ (e = .os .notFound → s.required = true)) ∨
    ∃ text, fs.readText s.path = .ok text ∧ ofText? text = none

/-- The layer in the file of a source, if there is such a file. -/
def Source.layer? (fs : FileSystem) (s : Source) : Option Config :=
  match fs.readText s.path with
  | .ok text => ofText? text
  | .error _ => none

theorem ofFile_of_notFound {path : Path} (h : fs.readText path = .error (.os .notFound)) :
    ofFile fs path = .ok none := by
  rw [ofFile, h]

theorem ofFile_of_error {path : Path} {e : ReadError} (h : fs.readText path = .error e)
    (he : e ≠ .os .notFound) : ofFile fs path = .error (.unreadable path e) := by
  rw [ofFile, h]
  split
  · next heq => exact absurd (Except.error.inj heq) he
  · next heq => rw [Except.error.inj heq]
  · next heq => cases heq

theorem loadAll_cons_of_unsound (h : s.IsUnsound fs) (rest : List Source) :
    ∃ e, (loadAll fs (s :: rest)).layers = .error e := by
  rcases h with ⟨e, hread, hrequired⟩ | ⟨text, hread, hinvalid⟩
  · by_cases he : e = .os .notFound
    · subst he
      simp [loadAll, ofFile_of_notFound hread, hrequired rfl]
    · simp [loadAll, ofFile_of_error hread he]
  · simp [loadAll, ofFile, hread, hinvalid]

theorem loadAll_cons_of_sound (h : ¬ s.IsUnsound fs) (rest : List Source) :
    (loadAll fs (s :: rest)).layers
      = (loadAll fs rest).layers.map ((s.layer? fs).toList ++ ·) := by
  cases hread : fs.readText s.path with
  | error e =>
    have hmissing : e = .os .notFound ∧ s.required ≠ true := by
      by_contra hother
      exact h (.inl ⟨e, hread, fun he => by_contra fun hmay => hother ⟨he, hmay⟩⟩)
    obtain ⟨rfl, hmay⟩ := hmissing
    rw [loadAll, ofFile_of_notFound hread, Source.layer?, hread]
    cases hrest : (loadAll fs rest).layers <;> simp [hmay, hrest, Except.map]
  | ok text =>
    cases hlayer : ofText? text with
    | none => exact absurd (.inr ⟨text, hread, hlayer⟩) h
    | some c =>
      rw [loadAll, ofFile, Source.layer?, hread]
      simp [hlayer]

/-- Loading fails exactly if a source is unsound, whatever the others say. -/
theorem exists_loadAll_error_iff :
    (∃ e, (loadAll fs sources).layers = .error e) ↔ ∃ s ∈ sources, s.IsUnsound fs := by
  induction sources with
  | nil => simp [loadAll]
  | cons s rest ih =>
    rw [List.exists_mem_cons_iff, ← ih]
    by_cases hs : s.IsUnsound fs
    · exact iff_of_true (loadAll_cons_of_unsound hs rest) (.inl hs)
    · rw [loadAll_cons_of_sound hs]
      cases (loadAll fs rest).layers <;> simp [hs, Except.map]

theorem loadAll_of_sound (h : ∀ s ∈ sources, ¬ s.IsUnsound fs) :
    (loadAll fs sources).layers = .ok (sources.filterMap (·.layer? fs)) := by
  induction sources with
  | nil => rfl
  | cons s rest ih =>
    obtain ⟨hs, hrest⟩ := List.forall_mem_cons.mp h
    rw [loadAll_cons_of_sound hs, ih hrest]
    cases hlayer : s.layer? fs <;> simp [Except.map, hlayer]

end Config

namespace Command

open Config

variable {fs : FileSystem} {env : Environment} {base : Path} {a : Arguments}

/-- What the files say about a value, that of the project at `base` before that of the user. -/
def saidInFiles {α : Type} (fs : FileSystem) (env : Environment) (base : Path) (a : Arguments)
    (value : Config → Option α) : Option α :=
  ((projectSource base a.config).layer? fs).bind value <|>
    (userSource? env).bind fun s => (s.layer? fs).bind value

/-- The layers of a run, the flags last. -/
def layers (fs : FileSystem) (env : Environment) (base : Path) (a : Arguments) : List Config :=
  ((sources env base a.config).filterMap (·.layer? fs)).reverse ++ [a.overrides]

theorem lastSet_layers {α : Type} (value : Config → Option α) :
    lastSet (layers fs env base a) value
      = (value a.overrides <|> saidInFiles fs env base a value) := by
  have hlayers : layers fs env base a = ((userSource? env).bind (·.layer? fs)).toList
      ++ ((projectSource base a.config).layer? fs).toList
      ++ (some a.overrides).toList := by
    rw [layers, sources]
    cases hproject : (projectSource base a.config).layer? fs <;>
      cases huser : userSource? env with
      | none => simp [hproject]
      | some s => cases hlayer : s.layer? fs <;> simp [hproject, hlayer]
  simp only [hlayers, lastSet_append, lastSet_toList, saidInFiles, Option.bind_assoc,
    Option.bind_some]

theorem not_loads_of_unsound (h : ∃ s ∈ sources env base a.config, s.IsUnsound fs)
    (config : Config) : ¬ Loads fs env base a config := by
  obtain ⟨e, he⟩ := exists_loadAll_error_iff.mpr h
  simp [Loads, Loading.config, load, he, Except.map]

theorem exists_loads_of_sound (h : ∀ s ∈ sources env base a.config, ¬ s.IsUnsound fs) :
    ∃ config, Loads fs env base a config ∧
      settings base a config = settingsBy base (lastSet (layers fs env base a)) := by
  refine ⟨mergeAll ((sources env base a.config).filterMap (·.layer? fs)).reverse, ?_, ?_⟩
  · simp [Loads, Loading.config, load, loadAll_of_sound h, Except.map]
  · rw [settings, ← mergeAll_concat, settings_mergeAll, layers]

/-- Merging is associative and the empty layer changes nothing, and of any number of layers the last
that sets a value decides it. A run needs a root, and then loads its layers exactly if the file of
the project, or the one that is named instead, and that of the user are sound. Then each value is
taken from the flags, the project, the user or the defaults, in this order, and the run goes on with
these settings. -/
theorem layers_decide_field_by_field :
    (∀ c d e : Config, (c.merge d).merge e = c.merge (d.merge e)) ∧
    (∀ c : Config, Config.empty.merge c = c ∧ c.merge .empty = c) ∧
    (∀ (cs : List Config) (base : Path),
      (mergeAll cs).settings base = settingsBy base (lastSet cs)) ∧
    ∀ (fs : FileSystem) (env : Environment) (a : Arguments),
      (∀ e, root fs a = .error e → (run fs env a).exitCode = failed ∧
        (run fs env a).fileSystem = fs) ∧
      ∀ base, root fs a = .ok base →
        ((∃ s ∈ sources env base a.config, s.IsUnsound fs) →
          (∀ config, ¬ Loads fs env base a config) ∧ (run fs env a).exitCode = failed ∧
            (run fs env a).fileSystem = fs) ∧
        ((∀ s ∈ sources env base a.config, ¬ s.IsUnsound fs) →
          ∃ config, Loads fs env base a config ∧
            (settings base a config =
              { schemas :=
                  { entities := place base (saidInFiles fs env base a (·.entities))
                      ((base.child "src").child "api")
                    components := place base (saidInFiles fs env base a (·.components))
                      ((base.child "src").child "components") }
                backendOut := place base (a.out <|> saidInFiles fs env base a (·.backendOut))
                  ((base.child "src").child "types")
                frontendOut :=
                  place base (a.frontendOut <|> saidInFiles fs env base a (·.frontendOut))
                    ((((base.child "..").child "frontend").child "src").child "types")
                fileName := (a.fileName <|> saidInFiles fs env base a (·.fileName)).getD "types.ts"
                frontend := if Arguments.frontendTarget ∈ a.targets then true
                  else (saidInFiles fs env base a (·.frontend)).getD false
                layout := if a.compact then .compact
                  else (saidInFiles fs env base a (·.layout)).getD .pretty
                onCollision :=
                  (a.onCollision <|> saidInFiles fs env base a (·.onCollision)).getD
                    .firstWins }) ∧
            ∀ g, Generates fs (settings base a config) g → run fs env a
              = finish fs a (settings base a config) g (preparationEvents fs env base a)) := by
  refine ⟨merge_assoc, fun c => ⟨empty_merge c, merge_empty c⟩, settings_mergeAll, ?_⟩
  intro fs env a
  refine ⟨fun e he => (run_of_root_error he).symm, ?_⟩
  intro base hroot
  constructor
  · intro h
    have hnot := not_loads_of_unsound h
    have hready : ¬ ∃ base config g, Prepares fs env a base config g := by
      rintro ⟨base', config, g, hprepares⟩
      cases Except.ok.inj (hroot.symm.trans hprepares.root)
      exact hnot config hprepares.loads
    exact ⟨hnot, (run_of_not_prepares hready).2, (run_of_not_prepares hready).1⟩
  · intro h
    obtain ⟨config, hloads, hsettings⟩ := exists_loads_of_sound h
    refine ⟨config, hloads, ?_, fun g hg => run_of_prepares ⟨hroot, hloads, hg⟩⟩
    rw [hsettings, settingsBy]
    simp only [lastSet_layers, Arguments.overrides]
    congr 1
    · split_ifs <;> simp
    · split_ifs <;> simp

/-! ### Two files and some flags -/

def projectText : String := "[output]\nfile_name = \"p.ts\"\n"

def userText : String := "[output]\nfile_name = \"u.ts\"\nlayout = \"compact\"\n"

/-- A project with a file of settings, and a user with one. -/
def twoFiles : FileSystem :=
  .ofObjects
    [([utf8 "p"], .directory),
      ([utf8 "p", utf8 "strapi-types.toml"], .file projectText.toUTF8),
      ([utf8 "u"], .directory), ([utf8 "u", utf8 "strapi-types"], .directory),
      ([utf8 "u", utf8 "strapi-types", utf8 "config.toml"], .file userText.toUTF8)]
    (by decide) (by decide)

def userHome : Environment := ⟨some "/u", none, none⟩

def outFlag : Arguments where
  targets := [Arguments.frontendTarget]
  root := some (.ofString "/p")
  out := some (.ofString "/out")

/-- Flags that name another file, which is not there. -/
def goneFlag : Arguments :=
  { outFlag with config := some (.ofString "/gone.toml") }

theorem readText_project :
    twoFiles.readText (.ofString "/p/strapi-types.toml") = .ok projectText := by
  have hfind : twoFiles.find true (.ofString "/p/strapi-types.toml")
      = .ok ([utf8 "p", utf8 "strapi-types.toml"], .file projectText.toUTF8) := by
    cbv
  exact FileSystem.readText_of_find hfind

theorem readText_user :
    twoFiles.readText (.ofString "/u/strapi-types/config.toml") = .ok userText := by
  have hfind : twoFiles.find true (.ofString "/u/strapi-types/config.toml")
      = .ok ([utf8 "u", utf8 "strapi-types", utf8 "config.toml"], .file userText.toUTF8) := by
    cbv
  exact FileSystem.readText_of_find hfind

theorem sources_outFlag : sources userHome (.ofString "/p") outFlag.config
    = [⟨.ofString "/p/strapi-types.toml", false⟩,
      ⟨.ofString "/u/strapi-types/config.toml", false⟩] := by
  decide

/-- The name of the file comes from the project, which is above the user, and the layout from the
user; a file that is named and missing stops the run, and so does a root that is neither named nor
there. -/
theorem layers_of_outFlag :
    root twoFiles outFlag = .ok (.ofString "/p") ∧
    (∀ s ∈ sources userHome (.ofString "/p") outFlag.config, ¬ s.IsUnsound twoFiles) ∧
    (∃ config, Loads twoFiles userHome (.ofString "/p") outFlag config ∧
      let s := settings (.ofString "/p") outFlag config
      s.backendOut = .ofString "/out" ∧ s.fileName = "p.ts" ∧ s.layout = .compact ∧
        s.frontend = true ∧ s.onCollision = .firstWins) ∧
    root twoFiles goneFlag = .ok (.ofString "/p") ∧
    (∃ s ∈ sources userHome (.ofString "/p") goneFlag.config, s.IsUnsound twoFiles) ∧
    (∀ config, ¬ Loads twoFiles userHome (.ofString "/p") goneFlag config) ∧
    (run twoFiles userHome goneFlag).exitCode = failed ∧
    root .stranded bareArguments = .error .notFound ∧
    (run .stranded userHome bareArguments).exitCode = failed := by
  have hroot : root twoFiles outFlag = .ok (.ofString "/p") := by decide
  have hroot' : root twoFiles goneFlag = .ok (.ofString "/p") := by decide
  have hnoRoot : root .stranded bareArguments = .error .notFound := by decide
  have hprojectLayer : ofText? projectText = some { fileName := some "p.ts" } := by cbv
  have huserLayer : ofText? userText
      = some { fileName := some "u.ts", layout := some .compact } := by
    cbv
  have hsound : ∀ s ∈ sources userHome (.ofString "/p") outFlag.config,
      ¬ s.IsUnsound twoFiles := by
    rw [sources_outFlag]
    intro s hs
    rcases List.mem_pair.mp hs with rfl | rfl
    · rintro (⟨e, he, -⟩ | ⟨text, htext, hnone⟩)
      · cases readText_project.symm.trans he
      · cases readText_project.symm.trans htext
        cases hprojectLayer.symm.trans hnone
    · rintro (⟨e, he, -⟩ | ⟨text, htext, hnone⟩)
      · cases readText_user.symm.trans he
      · cases readText_user.symm.trans htext
        cases huserLayer.symm.trans hnone
  have hgone : ∃ s ∈ sources userHome (.ofString "/p") goneFlag.config,
      s.IsUnsound twoFiles := by
    have hmissing : twoFiles.readText (.ofString "/gone.toml") = .error (.os .notFound) := by cbv
    exact ⟨⟨.ofString "/gone.toml", true⟩, by decide, .inl ⟨_, hmissing, fun _ => rfl⟩⟩
  have hsaid {α : Type} (value : Config → Option α) :
      saidInFiles twoFiles userHome (.ofString "/p") outFlag value
        = (value { fileName := some "p.ts" } <|>
          value { fileName := some "u.ts", layout := some .compact }) := by
    have hproject : projectSource (.ofString "/p") outFlag.config
        = ⟨.ofString "/p/strapi-types.toml", false⟩ := by
      decide
    have huser : userSource? userHome = some ⟨.ofString "/u/strapi-types/config.toml", false⟩ := by
      decide
    simp only [saidInFiles, hproject, huser, Source.layer?, readText_project, readText_user,
      hprojectLayer, huserLayer, Option.bind_some]
  obtain ⟨-, -, -, hruns⟩ := layers_decide_field_by_field
  obtain ⟨-, hrooted⟩ := hruns twoFiles userHome outFlag
  obtain ⟨config, hconfig, hsettings, -⟩ := (hrooted _ hroot).2 hsound
  obtain ⟨-, hrooted'⟩ := hruns twoFiles userHome goneFlag
  obtain ⟨hnot, hcode, -⟩ := (hrooted' _ hroot').1 hgone
  obtain ⟨hrootless, -⟩ := hruns .stranded userHome bareArguments
  refine ⟨hroot, hsound, ⟨config, hconfig, ?_⟩, hroot', hgone, hnot, hcode, hnoRoot,
    (hrootless _ hnoRoot).1⟩
  simp only [hsettings, hsaid]
  decide

end Command

end ContentTypes
