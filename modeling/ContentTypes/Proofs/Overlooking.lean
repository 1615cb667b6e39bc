import ContentTypes.Config.Sources
import ContentTypes.Proofs.Display
import ContentTypes.Proofs.ExactDiscovery
import ContentTypes.Proofs.FileSystem.Trail
import ContentTypes.Proofs.Generation
import Mathlib
/-!
Reading that does not notice what was built. Sources of settings and schema directories from which
nothing of it is seen come to the same: every schema of a unit stands below its directory, so it is
out of sight as well.
-/

namespace ContentTypes

open FileSystem

section
variable {fs fs' : FileSystem} {content : ByteArray} {p : Path}

theorem utf8_ne_dots {s : String} (hs : s ≠ "..") : utf8 s ≠ dots := by
  intro h
  have hdots : utf8 ".." = dots := by decide
  exact hs (utf8_injective (h.trans hdots.symm))

/-- A path under a name in a directory, for a path to the directory that may be joined to. -/
theorem overlooks_join {n : Name} (h : Overlooks fs fs' p ∧ p.bytes ≠ [])
    (hslash : Path.slash ∉ n) (hdots : n ≠ dots) :
    Overlooks fs fs' (p.join ⟨n⟩) ∧ (p.join ⟨n⟩).bytes ≠ [] := by
  have hrelative := Path.not_isAbsolute_of_notMem hslash
  have hparts : dots ∉ (⟨n⟩ : Path).parts :=
    fun hmem => hdots (Path.eq_of_mem_parts hslash hmem).symm
  exact ⟨h.1.join h.2 hrelative hparts, Path.bytes_join_ne_nil h.2 hrelative⟩

theorem overlooks_child {s : String} (h : Overlooks fs fs' p ∧ p.bytes ≠ [])
    (hslash : '/' ∉ s.toList) (hs : s ≠ "..") :
    Overlooks fs fs' (p.child s) ∧ (p.child s).bytes ≠ [] := by
  refine overlooks_join h ?_ (utf8_ne_dots hs)
  rwa [mem_utf8_iff (c := '/') (by decide) (by decide)]

/-! ### Names as they show -/

variable {n : Name}

theorem slash_notMem_displayBytes (hn : Path.slash ∉ n) : '/' ∉ (displayBytes n).toList := by
  intro h
  exact hn (mem_of_mem_displayBytes (by decide) (by decide) (by decide) h)

theorem displayBytes_ne_dots (hn : ¬ Listing.isHidden n) : displayBytes n ≠ ".." := by
  intro h
  have hhead : (displayBytes n).toList.head? = some '.' := by
    rw [h]
    decide
  apply hn
  rw [Listing.isHidden, decide_eq_true_eq]
  exact head?_of_displayBytes (by decide) (by decide) (by decide) hhead

end

variable {fs fs' : FileSystem} {content : ByteArray} {p dir : Path} {loc : Location}

/-! ### Files and listings -/

section
variable (hfree : fs.LinkFree []) (hbuilds : Builds content fs fs')
include hfree hbuilds

theorem readText_of_overlooks (h : Overlooks fs fs' p) : fs'.readText p = fs.readText p := by
  rw [readText, readText, readBytes, readBytes, find_of_overlooks hfree hbuilds h]

theorem Config.loadAll_of_overlooks {sources : List Source}
    (h : ∀ s ∈ sources, Overlooks fs fs' s.path) : loadAll fs' sources = loadAll fs sources := by
  induction sources with
  | nil => rfl
  | cons s rest ih =>
    obtain ⟨hs, hrest⟩ := List.forall_mem_cons.mp h
    have hfile : ofFile fs' s.path = ofFile fs s.path := by
      rw [ofFile, ofFile, readText_of_overlooks hfree hbuilds hs]
    rw [loadAll, loadAll, hfile, ih hrest]

theorem Schema.load_of_overlooks {α : Type} (schema : Json.Reader α) (h : Overlooks fs fs' p) :
    load schema fs' p = load schema fs p := by
  rw [load, load, readText_of_overlooks hfree hbuilds h]

theorem Listing.list_of_overlooks (h : Overlooks fs fs' dir) (maxDepth : Nat) :
    list fs' dir maxDepth = list fs dir maxDepth := by
  have hsame : fs'.find true dir = fs.find true dir := find_of_overlooks hfree hbuilds h
  rw [list, list, hsame]
  cases hr : fs.find true dir with
  | error e => rfl
  | ok r =>
    obtain ⟨loc, o⟩ := r
    cases o with
    | file c => rfl
    | link t => rfl
    | directory =>
      cases maxDepth with
      | zero => rfl
      | succ levels =>
        have hopen : Ancestor.IsOpen fs ⟨dir, loc⟩ := hr
        have hopen' : Ancestor.IsOpen fs' ⟨dir, loc⟩ := hsame.trans hr
        obtain rfl := location_of_find hfree h.noDots hr
        dsimp only
        rw [entries_congr hopen hopen' (hfree.below List.nil_prefix) h.keepsOff.below]

end

/-! ### Units -/

namespace Discovery

variable {α : Type} {origin : Origin} {unit? : Entry → Option α}

theorem discover_of_overlooks (hfree : fs.LinkFree []) (hbuilds : Builds content fs fs')
    (h : Overlooks fs fs' dir) (maxDepth : Nat) :
    discover origin maxDepth unit? fs' dir = discover origin maxDepth unit? fs dir :=
  discover_congr (Listing.list_of_overlooks hfree hbuilds h maxDepth)

/-- A unit stands for a name in the directory that it was discovered in. -/
theorem exists_name_of_mem_units (hfree : fs.LinkFree []) (hunit : IgnoresTopFiles unit?)
    {levels : Nat} {u : α}
    (h : u ∈ (Discovered.ofResult origin
      (discover origin (levels + 1) unit? fs dir)).units) :
    ∃ loc name, fs.find true dir = .ok (loc, .directory) ∧
      fs.get? (loc ++ [name]) = some .directory ∧ ¬ Listing.isHidden name ∧
      u ∈ gatheredBelow unit? fs dir loc levels name := by
  cases hr : fs.find true dir with
  | error e =>
    rw [discover, Listing.list, hr] at h
    dsimp only at h
    rw [Discovered.ofResult] at h
    split_ifs at h <;> cases h
  | ok r =>
    obtain ⟨loc, o⟩ := r
    cases o with
    | file c =>
      rw [discover, Listing.list, hr] at h
      cases h
    | link t =>
      rw [discover, Listing.list, hr] at h
      cases h
    | directory =>
      have hbelow := hfree.below (List.nil_prefix (l := loc))
      rw [discover_of_list (Listing.list_of_directory hr levels), gathered_entries] at h
      obtain ⟨name, hname, hu⟩ := List.mem_flatMap.mp h
      obtain ⟨hget, hvisible, hu⟩ := (mem_gathered_top_iff hunit hbelow hname).mp hu
      exact ⟨loc, name, rfl, hget, hvisible, hu⟩

end Discovery

namespace SchemaDirectories

variable {dirs : SchemaDirectories}

/-- The schema of an entity stands below the directory of the entities. -/
theorem overlooks_schemaPath (hfree : fs.LinkFree []) (h : Overlooks fs fs' dirs.entities)
    {u : EntityUnit} (hu : u ∈ (dirs.foundEntities fs).units) :
    Overlooks fs fs' u.schemaPath := by
  obtain ⟨loc, name, hfind, hget, hvisible, hu⟩ :=
    Discovery.exists_name_of_mem_units hfree (Discovery.ignoresTopFiles_entityUnit? _) hu
  rw [Discovery.gatheredBelow_entity, List.mem_singleton] at hu
  have hslash := slash_notMem_displayBytes (parent hget).2.noSlash
  have hdots := displayBytes_ne_dots hvisible
  have hdir := overlooks_child ⟨h, bytes_ne_nil_of_find hfind⟩ hslash hdots
  have hinner := overlooks_child (overlooks_child hdir (s := "content-types") (by decide)
    (by decide)) hslash hdots
  rw [hu]
  exact (overlooks_child hinner (s := "schema.json") (by decide) (by decide)).1

/-- The file of a component stands below the directory of the components. -/
theorem overlooks_path (hfree : fs.LinkFree []) (h : Overlooks fs fs' dirs.components)
    {u : ComponentUnit} (hu : u ∈ (dirs.foundComponents fs).units) :
    Overlooks fs fs' u.path := by
  obtain ⟨loc, group, hfind, hget, -, hu⟩ :=
    Discovery.exists_name_of_mem_units hfree Discovery.ignoresTopFiles_componentUnit? hu
  obtain ⟨-, name, hname, hu⟩ := (Discovery.mem_gatheredBelow_component_iff hfind hget).mp hu
  obtain ⟨⟨content, hfile⟩, stem, -, rfl⟩ :=
    (Discovery.mem_gathered_file_iff (hfree.below List.nil_prefix) hname).mp hu
  have hdir := overlooks_join ⟨h, bytes_ne_nil_of_find hfind⟩ (parent hget).2.noSlash
    (parent hget).2.ne_dots
  exact (overlooks_join hdir (parent hfile).2.noSlash (parent hfile).2.ne_dots).1

variable (hfree : fs.LinkFree []) (hbuilds : Builds content fs fs')
include hfree hbuilds

theorem foundEntities_of_overlooks (hentities : Overlooks fs fs' dirs.entities) :
    dirs.foundEntities fs' = dirs.foundEntities fs := by
  rw [foundEntities, foundEntities, discoverEntities, discoverEntities,
    Discovery.discover_of_overlooks hfree hbuilds hentities]

theorem foundComponents_of_overlooks (hcomponents : Overlooks fs fs' dirs.components) :
    dirs.foundComponents fs' = dirs.foundComponents fs := by
  rw [foundComponents, foundComponents, discoverComponents, discoverComponents,
    Discovery.discover_of_overlooks hfree hbuilds hcomponents]

theorem entityWalk_of_overlooks (hentities : Overlooks fs fs' dirs.entities) :
    dirs.entityWalk fs' = dirs.entityWalk fs := by
  rw [entityWalk, entityWalk, foundEntities_of_overlooks hfree hbuilds hentities,
    Walk.entities, Walk.entities]
  congr 1
  apply List.map_congr_left
  intro u hu
  have hpath := overlooks_schemaPath hfree hentities hu
  rw [Walk.collectEntity, Walk.collectEntity, EntitySchema.load,
    Schema.load_of_overlooks hfree hbuilds _ hpath]

theorem componentWalk_of_overlooks (hcomponents : Overlooks fs fs' dirs.components) :
    dirs.componentWalk fs' = dirs.componentWalk fs := by
  rw [componentWalk, componentWalk, foundComponents_of_overlooks hfree hbuilds hcomponents,
    Walk.components, Walk.components]
  congr 1
  apply List.map_congr_left
  intro u hu
  have hpath := overlooks_path hfree hcomponents hu
  rw [Walk.collectComponent, Walk.collectComponent, ComponentSchema.load,
    Schema.load_of_overlooks hfree hbuilds _ hpath]

end SchemaDirectories

/-- A generation does not notice what was built where its directories do not see it. -/
theorem generate_of_overlooks (hfree : fs.LinkFree [])
    (hbuilds : Builds content fs fs') {dirs : SchemaDirectories}
    (hentities : Overlooks fs fs' dirs.entities) (hcomponents : Overlooks fs fs' dirs.components)
    (policy : CollisionPolicy) (layout : Layout) :
    generate fs' dirs policy layout = generate fs dirs policy layout := by
  have hcollected : dirs.collected fs' = dirs.collected fs := by
    rw [SchemaDirectories.collected, SchemaDirectories.collected,
      dirs.entityWalk_of_overlooks hfree hbuilds hentities,
      dirs.componentWalk_of_overlooks hfree hbuilds hcomponents]
  have hreported : dirs.reported fs' = dirs.reported fs := by
    rw [SchemaDirectories.reported, SchemaDirectories.reported,
      dirs.foundEntities_of_overlooks hfree hbuilds hentities,
      dirs.foundComponents_of_overlooks hfree hbuilds hcomponents,
      dirs.entityWalk_of_overlooks hfree hbuilds hentities,
      dirs.componentWalk_of_overlooks hfree hbuilds hcomponents]
  rw [generate_eq, generate_eq, hcollected, hreported]
end ContentTypes
