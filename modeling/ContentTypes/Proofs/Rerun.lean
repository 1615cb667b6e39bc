import ContentTypes.Proofs.Outcome
import ContentTypes.Proofs.Overlooking
import Mathlib
/-!
Runs that are repeated. A run changes the tree that it reads from, but where it writes apart from
what it reads, a second run reads the same, generates the same and writes the same, which changes
nothing any more. There is one exception: a name that is too long is noticed only in a directory
that is there, and the first run may have made this directory.
-/

namespace ContentTypes

open FileSystem Destination

variable {fs fs' : FileSystem} {files : List Path} {p : Path} {content : ByteArray}

namespace FileSystem

/-- What `fs'` has beyond `fs`, with `files` among it, is apart from a path without `..`: neither a
new directory nor one of the files is at the location that it names or inside of it, and none of
the files is above it. -/
structure Apart (fs fs' : FileSystem) (files : List Path) (p : Path) : Prop where
  noDots : dots ∉ p.parts
  directories : ∀ l, fs.get? l = none → fs'.get? l = some .directory → ¬ fs.location p <+: l
  files : ∀ q ∈ files, ∀ l c, fs'.find true q = .ok (l, .file c) →
    ¬ fs.location p <+: l ∧ ¬ l <+: fs.location p

/-- Right behind a new directory, a path goes on with a part that can be a name. -/
def NamesFit (fs fs' : FileSystem) (p : Path) : Prop :=
  ∀ l n, fs.get? l = none → fs'.get? l = some .directory → l ++ [n] <+: fs.location p →
    n.length ≤ nameLimit

/-- Every file that is new or has changed is one of these. -/
def WritesOnly (fs fs' : FileSystem) (files : List Path) : Prop :=
  ∀ l c, fs'.get? l = some (.file c) → fs.get? l = some (.file c) ∨
    ∃ q ∈ files, ∃ c', fs'.find true q = .ok (l, .file c')

/-- What is not as it was is a new directory or one of the files. -/
theorem changes_cases (hbuilds : Builds content fs fs') (hwrites : WritesOnly fs fs' files)
    (l : Location) : fs'.get? l = fs.get? l ∨
      fs.get? l = none ∧ fs'.get? l = some .directory ∨
      ∃ q ∈ files, ∃ c, fs'.find true q = .ok (l, .file c) := by
  rcases hbuilds.get?_cases l with hsame | hnew | ⟨-, hfile⟩
  · exact .inl hsame
  · exact .inr (.inl hnew)
  · rcases hwrites l content hfile with hbefore | hwritten
    · exact .inl (hfile.trans hbefore.symm)
    · exact .inr (.inr hwritten)

/-- Everything apart is overlooked. -/
theorem overlooks_of_apart (hbuilds : Builds content fs fs') (hwrites : WritesOnly fs fs' files)
    (h : Apart fs fs' files p) (hfit : NamesFit fs fs' p) : Overlooks fs fs' p := by
  refine ⟨h.noDots, ?above, ?below⟩
  case above =>
    intro l hl
    rcases changes_cases hbuilds hwrites l with hsame | ⟨hnone, hnew⟩ | ⟨q, hq, c, hfind⟩
    · exact .inl hsame
    · obtain ⟨back, hback⟩ := hl
      cases back with
      | nil =>
        rw [List.append_nil] at hback
        exact absurd (hback ▸ List.prefix_refl _) (h.directories l hnone hnew)
      | cons n back =>
        have hn : l ++ [n] <+: fs.location p := ⟨back, by rw [← hback]; simp⟩
        exact .inr ⟨hnone, hnew, n, hn, hfit l n hnone hnew hn⟩
    · exact absurd hl (h.files q hq l c hfind).2
  case below =>
    intro l hl
    rcases changes_cases hbuilds hwrites l with hsame | ⟨hnone, hnew⟩ | ⟨q, hq, c, hfind⟩
    · exact hsame
    · exact absurd hl (h.directories l hnone hnew)
    · exact absurd hl (h.files q hq l c hfind).1

/-! ### The empty file system -/

theorem linkFree_empty (loc : Location) : FileSystem.empty.LinkFree loc :=
  linkFree_of_objects (by simp [empty, ofObjects]) loc

end FileSystem

namespace Command

variable {env : Environment} {a : Arguments} {base : Path} {config : Config} {g : Generated}

/-- Where a run with these settings reads: its sources of settings, and the directories of its
schemas. -/
def readPaths (env : Environment) (base : Path) (a : Arguments) (s : Settings) : List Path :=
  s.schemas.entities :: s.schemas.components ::
    (Config.sources env base a.config).map (·.path)

def filePaths (s : Settings) : List Path :=
  (destinations s).map (·.filePath s.fileName)

/-- A working directory that is there stays there. -/
theorem root_of_builds (hbuilds : Builds content fs fs') (h : root fs a = .ok base) :
    root fs' a = .ok base := by
  rw [root] at h ⊢
  cases hnamed : a.root with
  | some path =>
    rw [hnamed] at h
    exact h
  | none =>
    rw [hnamed] at h
    dsimp only at h ⊢
    rw [workingPath] at h ⊢
    split_ifs at h with hworking
    obtain ⟨_, hstays, ⟨⟩⟩ := hbuilds.covers.get? _ _ hworking
    rw [hbuilds.workingDirectory, if_pos hstays]
    exact h

/-- A run gets ready in the same way where it overlooks what was built. -/
theorem prepares_of_overlooks (hfree : fs.LinkFree []) (hbuilds : Builds content fs fs')
    (h : Prepares fs env a base config g)
    (hoverlooks : ∀ p ∈ readPaths env base a (settings base a config), Overlooks fs fs' p) :
    Prepares fs' env a base config g ∧
      preparationEvents fs' env base a = preparationEvents fs env base a := by
  simp only [readPaths, List.forall_mem_cons, List.forall_mem_map] at hoverlooks
  obtain ⟨hentities, hcomponents, hsources⟩ := hoverlooks
  have hload : Config.load fs' env base a.config = Config.load fs env base a.config := by
    rw [Config.load, Config.load, Config.loadAll_of_overlooks hfree hbuilds hsources]
  refine ⟨⟨root_of_builds hbuilds h.root, ?loads, ?generates⟩, ?events⟩
  case loads =>
    rw [Loads, hload]
    exact h.loads
  case generates =>
    rw [Generates, generate_of_overlooks hfree hbuilds hentities hcomponents]
    exact h.generates
  case events =>
    rw [preparationEvents, preparationEvents, hload]

theorem writesOnly_afterAll (fs : FileSystem) (text : String) (s : Settings) :
    WritesOnly fs (afterAll fs s.fileName text (destinations s)) (filePaths s) := by
  intro l c hl
  rcases file_cases hl with hbefore | ⟨front, d, back, path, hd, hpath, hfind⟩
  · exact .inl hbefore
  · obtain ⟨rfl, -⟩ := holds_afterAll hpath back
    have hmem : d ∈ destinations s := by simp [hd]
    exact .inr ⟨_, List.mem_map_of_mem hmem, _, hfind⟩

/-- A run that wrote every destination apart from what it reads comes to the same once more, and
leaves everything as it is, provided that the names fit. -/
theorem run_again (hfree : fs.LinkFree []) (h : Prepares fs env a base config g)
    (hwritten : AllWritten fs (settings base a config).fileName g.text
      (destinations (settings base a config)))
    (hapart : ∀ p ∈ readPaths env base a (settings base a config),
      Apart fs (run fs env a).fileSystem (filePaths (settings base a config)) p)
    (hfit : ∀ p ∈ readPaths env base a (settings base a config),
      NamesFit fs (run fs env a).fileSystem p) :
    Prepares (run fs env a).fileSystem env a base config g ∧
      run (run fs env a).fileSystem env a = run fs env a := by
  have hbuilds := builds_afterAll fs (settings base a config).fileName g.text
    (destinations (settings base a config))
  rw [fileSystem_of_prepares h] at hapart hfit ⊢
  have hoverlooks : ∀ p ∈ readPaths env base a (settings base a config),
      Overlooks fs (afterAll fs (settings base a config).fileName g.text
        (destinations (settings base a config))) p :=
    fun p hp => overlooks_of_apart hbuilds (writesOnly_afterAll fs g.text _) (hapart p hp)
      (hfit p hp)
  obtain ⟨hagain, hevents⟩ := prepares_of_overlooks hfree hbuilds h hoverlooks
  refine ⟨hagain, ?_⟩
  rw [run_of_prepares hagain, run_of_prepares h, hevents, finish, finish, ← fst_writeAll,
    hwritten.writeAll_again]

/-! ### A project beside its types -/

def besideRoot (name : Name) : Path :=
  ⟨utf8 "/work/" ++ name⟩

/-- Nothing is set but where the project `/work/<name>` is, and that its types go to
`/work/types`. -/
def besideProject (name : Name) : Arguments where
  root := some (besideRoot name)
  out := some (.ofString "/work/types")

/-- The directories for the types of that project. -/
def typesDirectories : FileSystem :=
  (FileSystem.empty.put [utf8 "work"] .directory (by decide)).put [utf8 "work", utf8 "types"]
    .directory (by decide)

theorem admits_types (text : String) :
    typesDirectories.Admits [utf8 "work", utf8 "types", utf8 "types.ts"] (.file text.toUTF8) :=
  ⟨by decide, trivial, fun h => by cases h⟩

/-- Only the types of that project. -/
def onlyTypes (text : String) : FileSystem :=
  typesDirectories.put [utf8 "work", utf8 "types", utf8 "types.ts"] (.file text.toUTF8)
    (admits_types text)

/-- The directories that were made for the types. -/
theorem directory_cases {text : String} {l : Location} (hnone : FileSystem.empty.get? l = none)
    (hnew : (onlyTypes text).get? l = some .directory) :
    l = [utf8 "work"] ∨ l = [utf8 "work", utf8 "types"] := by
  rw [onlyTypes, get?_put, typesDirectories, get?_put, get?_put, hnone] at hnew
  by_cases htypes : l = [utf8 "work", utf8 "types"]
  · exact .inr htypes
  by_cases hwork : l = [utf8 "work"]
  · exact .inl hwork
  · rw [if_neg htypes, if_neg hwork] at hnew
    split_ifs at hnew
    cases hnew

variable {name : Name} {more : Location} {text : String}

/-- What is read in the project is apart from its types, whatever the project is called
otherwise. -/
theorem apart_onlyTypes (hname : name ≠ utf8 "types") (hp : dots ∉ p.parts)
    (hlocation : FileSystem.empty.location p = utf8 "work" :: name :: more) (hmore : more ≠ []) :
    Apart .empty (onlyTypes text) [.ofString "/work/types/types.ts"] p where
  noDots := hp
  directories := by
    intro l hnone hnew hl
    have hlength := hl.length_le
    have hpos := List.length_pos_iff.mpr hmore
    rw [hlocation, List.length_cons, List.length_cons] at hlength
    rcases directory_cases hnone hnew with rfl | rfl
    · simp at hlength
    · simp only [List.length_cons, List.length_nil] at hlength
      omega
  files := by
    intro q hq l c hfind
    obtain rfl := List.mem_singleton.mp hq
    have hfile : (onlyTypes text).find true (.ofString "/work/types/types.ts")
        = .ok ([utf8 "work", utf8 "types", utf8 "types.ts"], .file text.toUTF8) := by cbv
    rw [hfind, Except.ok.injEq, Prod.mk.injEq] at hfile
    rw [hlocation, hfile.1]
    constructor
    · intro habove
      rw [List.cons_prefix_cons, List.cons_prefix_cons] at habove
      exact hname habove.2.1
    · intro habove
      rw [List.cons_prefix_cons, List.cons_prefix_cons] at habove
      exact hname habove.2.1.symm

theorem namesFit_onlyTypes (hname : name ≠ utf8 "types") (hlength : name.length ≤ nameLimit)
    (hlocation : FileSystem.empty.location p = utf8 "work" :: name :: more) :
    NamesFit .empty (onlyTypes text) p := by
  intro l n hnone hnew habove
  rw [hlocation] at habove
  rcases directory_cases hnone hnew with rfl | rfl
  · rw [List.singleton_append, List.cons_prefix_cons, List.cons_prefix_cons] at habove
    rw [habove.2.1]
    exact hlength
  · rw [List.cons_append, List.cons_prefix_cons, List.cons_append, List.cons_prefix_cons] at habove
    exact absurd habove.2.1.symm hname

theorem destinations_besideProject (name : Name) :
    destinations (settings (besideRoot name) (besideProject name) .empty)
      = [⟨"backend", .ofString "/work/types"⟩] := rfl

theorem allWritten_besideProject (name : Name) (text : String) :
    AllWritten .empty "types.ts" text
      (destinations (settings (besideRoot name) (besideProject name) .empty)) := by
  intro front d back hd
  have hresult : resultAfter .empty "types.ts" text [] ⟨"backend", .ofString "/work/types"⟩
      = .ok (.ofString "/work/types/types.ts") := by cbv
  cases front with
  | nil =>
    rw [destinations_besideProject, List.nil_append, List.cons.injEq] at hd
    rw [← hd.1]
    exact ⟨_, hresult⟩
  | cons d' front =>
    have hlength := congrArg List.length hd
    simp [destinations_besideProject] at hlength

theorem afterAll_besideProject (text : String) :
    afterAll .empty "types.ts" text [⟨"backend", .ofString "/work/types"⟩] = onlyTypes text := by
  cbv

theorem exists_prepares_besideProject
    (hloads : Loads .empty ⟨none, none, none⟩ (besideRoot name) (besideProject name) .empty) :
    ∃ g, Prepares .empty ⟨none, none, none⟩ (besideProject name) (besideRoot name) .empty g ∧
      (run .empty ⟨none, none, none⟩ (besideProject name)).fileSystem = onlyTypes g.text := by
  have hgenerates :
      ∃ g, Generates .empty (settings (besideRoot name) (besideProject name) .empty) g :=
    exists_generates_iff.mpr fun hpolicy => by cases hpolicy
  obtain ⟨g, hg⟩ := hgenerates
  have h : Prepares .empty ⟨none, none, none⟩ (besideProject name) (besideRoot name) .empty g :=
    ⟨rfl, hloads, hg⟩
  refine ⟨g, h, ?_⟩
  rw [fileSystem_of_prepares h, destinations_besideProject]
  exact afterAll_besideProject g.text

/-- Where the project is read. -/
def projectPaths (name : Name) : List Path :=
  readPaths ⟨none, none, none⟩ (besideRoot name) (besideProject name)
    (settings (besideRoot name) (besideProject name) .empty)

/-- In the project there is a place for each path. -/
theorem location_of_mem_projectPaths (name : Name)
    (h : (projectPaths name).map (fun p => (decide (dots ∈ p.parts), FileSystem.empty.location p))
      = [(false, [utf8 "work", name, utf8 "src", utf8 "api"]),
        (false, [utf8 "work", name, utf8 "src", utf8 "components"]),
        (false, [utf8 "work", name, utf8 "strapi-types.toml"])])
    (hp : p ∈ projectPaths name) : dots ∉ p.parts ∧
      ∃ more ≠ [], FileSystem.empty.location p = utf8 "work" :: name :: more := by
  have hmem := List.mem_map_of_mem hp
    (f := fun p => (decide (dots ∈ p.parts), FileSystem.empty.location p))
  rw [h] at hmem
  simp only [List.mem_cons, Prod.mk.injEq, decide_eq_false_iff_not, List.not_mem_nil,
    or_false] at hmem
  rcases hmem with ⟨hdots, hlocation⟩ | ⟨hdots, hlocation⟩ | ⟨hdots, hlocation⟩
  all_goals exact ⟨hdots, _, List.cons_ne_nil _ _, hlocation⟩

/-- A project of an ordinary name: the second run finds `/work` where nothing was before, and comes
to the same. -/
theorem run_again_blog : ∃ g,
    Prepares .empty ⟨none, none, none⟩ (besideProject (utf8 "blog")) (besideRoot (utf8 "blog"))
      .empty g ∧
    run (run .empty ⟨none, none, none⟩ (besideProject (utf8 "blog"))).fileSystem
        ⟨none, none, none⟩ (besideProject (utf8 "blog"))
      = run .empty ⟨none, none, none⟩ (besideProject (utf8 "blog")) := by
  have hloads : Loads .empty ⟨none, none, none⟩ (besideRoot (utf8 "blog"))
      (besideProject (utf8 "blog")) .empty := by cbv
  have hname : utf8 "blog" ≠ utf8 "types" := by decide
  have hpaths (p : Path) (hp : p ∈ projectPaths (utf8 "blog")) := location_of_mem_projectPaths
    (utf8 "blog") (by cbv) hp
  obtain ⟨g, h, hfileSystem⟩ := exists_prepares_besideProject hloads
  refine ⟨g, h, (run_again (linkFree_empty []) h (allWritten_besideProject _ g.text) ?apart
    ?fit).2⟩
  case apart =>
    intro p hp
    obtain ⟨hdots, more, hmore, hlocation⟩ := hpaths p hp
    rw [hfileSystem]
    exact apart_onlyTypes hname hdots hlocation hmore
  case fit =>
    intro p hp
    obtain ⟨-, more, -, hlocation⟩ := hpaths p hp
    rw [hfileSystem]
    exact namesFit_onlyTypes hname (by decide) hlocation

/-- One byte more than a name may have. -/
def longName : Name :=
  List.replicate 256 0x61

set_option maxRecDepth 8000 in
/-- A project whose name is too long is missing at first. Everything that the first run reads is
apart from what it writes, but it makes `/work`, and the second run cannot read in there. -/
theorem run_again_longName :
    FileSystem.empty.LinkFree [] ∧
    ∃ g, Prepares .empty ⟨none, none, none⟩ (besideProject longName) (besideRoot longName) .empty
        g ∧
      AllWritten .empty (settings (besideRoot longName) (besideProject longName) .empty).fileName
        g.text (destinations (settings (besideRoot longName) (besideProject longName) .empty)) ∧
      (∀ p ∈ readPaths ⟨none, none, none⟩ (besideRoot longName) (besideProject longName)
          (settings (besideRoot longName) (besideProject longName) .empty),
        Apart .empty (run .empty ⟨none, none, none⟩ (besideProject longName)).fileSystem
          (filePaths (settings (besideRoot longName) (besideProject longName) .empty)) p) ∧
      (run .empty ⟨none, none, none⟩ (besideProject longName)).exitCode = succeeded ∧
      (run (run .empty ⟨none, none, none⟩ (besideProject longName)).fileSystem
        ⟨none, none, none⟩ (besideProject longName)).exitCode = failed := by
  have hloads : Loads .empty ⟨none, none, none⟩ (besideRoot longName) (besideProject longName)
      .empty := by cbv
  have hname : longName ≠ utf8 "types" := by decide
  obtain ⟨g, h, hfileSystem⟩ := exists_prepares_besideProject hloads
  have hwritten := allWritten_besideProject longName g.text
  refine ⟨linkFree_empty [], g, h, hwritten, ?apart, ?first, ?second⟩
  case apart =>
    intro p hp
    obtain ⟨hdots, more, hmore, hlocation⟩ := location_of_mem_projectPaths
      longName (by cbv) hp
    rw [hfileSystem]
    exact apart_onlyTypes hname hdots hlocation hmore
  case first =>
    refine (exitCode_of_prepares h).mpr ⟨hwritten, ?_⟩
    intro hstrict
    cases hstrict
  case second =>
    rw [hfileSystem]
    refine (run_of_not_prepares ?_).2
    rintro ⟨base, config, g', hprepares⟩
    cases Except.ok.inj (h.root.symm.trans hprepares.root)
    have hfails : (Config.load (onlyTypes g.text) ⟨none, none, none⟩ (besideRoot longName)
        (besideProject longName).config).config
          = .error (.unreadable (.child (besideRoot longName) "strapi-types.toml")
            (.os .nameTooLong)) := by cbv
    cases hfails.symm.trans hprepares.loads

end Command
end ContentTypes
