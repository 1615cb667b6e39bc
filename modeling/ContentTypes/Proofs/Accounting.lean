import ContentTypes.Proofs.Generation
import ContentTypes.Proofs.Resolution
/-!
The accounts of a generation. What a discovery found comes out again as a declaration or as a
diagnostic, each under the origin that it was found under, so no unit is lost without a word and
no policy changes the total.
-/

namespace ContentTypes

/-- Where all of a list is of one origin, it is counted as a whole or not at all. -/
theorem countP_origin {α : Type} {f : α → Origin} {origin : Origin} {l : List α}
    (h : ∀ x ∈ l, f x = origin) (o : Origin) :
    l.countP (f · = o) = if origin = o then l.length else 0 := by
  split_ifs with ho
  · rw [List.countP_eq_length]
    intro x hx
    simp [h x hx, ho]
  · rw [List.countP_eq_zero]
    intro x hx
    simp [h x hx, ho]

/-! ### What was found -/

namespace Discovery

theorem origin_of_diagnostic? {origin : Origin} {item : Except ListError Entry} {d : Diagnostic}
    (h : diagnostic? origin item = some d) : d.origin = origin := by
  cases item with
  | ok e => cases h
  | error e =>
    cases h
    rfl

theorem origin_of_discover {α : Type} {origin : Origin} {maxDepth : Nat}
    {unit? : Entry → Option α} {fs : FileSystem} {dir : Path} {found : Discovered α}
    (h : discover origin maxDepth unit? fs dir = .ok found) :
    ∀ d ∈ found.diagnostics, d.origin = origin := by
  rw [discover] at h
  cases hl : Listing.list fs dir maxDepth with
  | error e =>
    rw [hl] at h
    cases h
  | ok items =>
    rw [hl] at h
    cases h
    intro d hd
    obtain ⟨item, -, hitem⟩ := List.mem_filterMap.mp hd
    exact origin_of_diagnostic? hitem

end Discovery

namespace Discovered

variable {α : Type}

/-- What a discovery answers for: its units, the places that it could not list, and its own
directory where that is there but cannot be listed. -/
def tally : Except DiscoverError (Discovered α) → Nat
  | .ok found => found.units.length + found.diagnostics.length
  | .error e => if e.cause.isNotFound then 0 else 1

theorem tally_eq (origin : Origin) (r : Except DiscoverError (Discovered α)) :
    tally r = (ofResult origin r).units.length + (ofResult origin r).diagnostics.length := by
  cases r with
  | ok found => rfl
  | error e =>
    rw [tally, ofResult]
    split_ifs <;> rfl

theorem origin_of_ofResult {origin : Origin} {r : Except DiscoverError (Discovered α)}
    (h : ∀ found, r = .ok found → ∀ d ∈ found.diagnostics, d.origin = origin) :
    ∀ d ∈ (ofResult origin r).diagnostics, d.origin = origin := by
  cases r with
  | ok found => exact h found rfl
  | error e =>
    rw [ofResult]
    split_ifs <;> simp

end Discovered

namespace SchemaDirectories

def tally (dirs : SchemaDirectories) (fs : FileSystem) : Origin → Nat
  | .entity => Discovered.tally (discoverEntities fs dirs.entities)
  | .component => Discovered.tally (discoverComponents fs dirs.components)

variable (dirs : SchemaDirectories) (fs : FileSystem)

theorem origin_of_foundEntities :
    ∀ d ∈ (dirs.foundEntities fs).diagnostics, d.origin = .entity :=
  Discovered.origin_of_ofResult fun _ h => Discovery.origin_of_discover h

theorem origin_of_foundComponents :
    ∀ d ∈ (dirs.foundComponents fs).diagnostics, d.origin = .component :=
  Discovered.origin_of_ofResult fun _ h => Discovery.origin_of_discover h

/-! ### What became of it -/

theorem resultOrigin_entities (us : List EntityUnit) :
    ∀ r ∈ us.map (Walk.collectEntity fs), Walk.resultOrigin r = .entity := by
  rintro _ hr
  obtain ⟨u, -, rfl⟩ := List.mem_map.mp hr
  exact Walk.resultOrigin_collect

theorem resultOrigin_components (us : List ComponentUnit) :
    ∀ r ∈ us.map (Walk.collectComponent fs), Walk.resultOrigin r = .component := by
  rintro _ hr
  obtain ⟨u, -, rfl⟩ := List.mem_map.mp hr
  exact Walk.resultOrigin_collect

theorem countP_entityWalk (o : Origin) :
    (dirs.entityWalk fs).declarations.countP (·.origin = o)
        + (dirs.entityWalk fs).diagnostics.countP (·.origin = o)
      = if .entity = o then (dirs.foundEntities fs).units.length else 0 := by
  rw [entityWalk, Walk.entities, Walk.countP_ofResults,
    countP_origin (resultOrigin_entities fs _), List.length_map]

theorem countP_componentWalk (o : Origin) :
    (dirs.componentWalk fs).declarations.countP (·.origin = o)
        + (dirs.componentWalk fs).diagnostics.countP (·.origin = o)
      = if .component = o then (dirs.foundComponents fs).units.length else 0 := by
  rw [componentWalk, Walk.components, Walk.countP_ofResults,
    countP_origin (resultOrigin_components fs _), List.length_map]

/-- Before names are resolved, everything found is collected or reported. -/
theorem countP_collected (o : Origin) :
    (dirs.collected fs).countP (·.origin = o) + (dirs.reported fs).countP (·.origin = o)
      = dirs.tally fs o := by
  have hew := dirs.countP_entityWalk fs o
  have hcw := dirs.countP_componentWalk fs o
  have hed := countP_origin (dirs.origin_of_foundEntities fs) o
  have hcd := countP_origin (dirs.origin_of_foundComponents fs) o
  simp only [collected, reported, List.countP_append]
  cases o with
  | entity =>
    have ht : dirs.tally fs .entity = _ := Discovered.tally_eq .entity _
    rw [if_pos rfl] at hew hed
    rw [if_neg (by decide)] at hcw hcd
    rw [ht]
    simp only [foundEntities] at hew hed
    simp only [foundEntities]
    omega
  | component =>
    have ht : dirs.tally fs .component = _ := Discovered.tally_eq .component _
    rw [if_neg (by decide)] at hew hed
    rw [if_pos rfl] at hcw hcd
    rw [ht]
    simp only [foundComponents] at hcw hcd
    simp only [foundComponents]
    omega

theorem origin_of_entityWalk : ∀ d ∈ (dirs.entityWalk fs).declarations, d.origin = .entity := by
  intro d hd
  exact resultOrigin_entities fs _ _ (Walk.mem_declarations_ofResults.mp hd)

theorem origin_of_componentWalk :
    ∀ d ∈ (dirs.componentWalk fs).declarations, d.origin = .component := by
  intro d hd
  exact resultOrigin_components fs _ _ (Walk.mem_declarations_ofResults.mp hd)

end SchemaDirectories

/-! ### What a generation gives -/

namespace Generated

def skippedOf (g : Generated) (origin : Origin) : Nat :=
  (g.diagnostics.filter (·.origin = origin)).length

theorem length_filter_origin {α : Type} (f : α → Origin) (l : List α) :
    (l.filter (f · = .entity)).length + (l.filter (f · = .component)).length = l.length := by
  induction l with
  | nil => rfl
  | cons x l ih =>
    rw [List.filter_cons, List.filter_cons, List.length_cons]
    cases f x with
    | entity =>
      rw [if_pos (by decide), if_neg (by decide), List.length_cons]
      omega
    | component =>
      rw [if_neg (by decide), if_pos (by decide), List.length_cons]
      omega

theorem length_declarations (g : Generated) :
    g.count .entity + g.count .component = g.declarations.length :=
  length_filter_origin Declaration.origin g.declarations

theorem skipped_eq (g : Generated) :
    g.skippedOf .entity + g.skippedOf .component = g.skipped :=
  length_filter_origin Diagnostic.origin g.diagnostics

end Generated

variable {fs : FileSystem} {dirs : SchemaDirectories} {policy : CollisionPolicy}
  {layout : Layout} {g : Generated}

theorem count_add_skippedOf (h : generate fs dirs policy layout = .ok g) (o : Origin) :
    g.count o + g.skippedOf o = dirs.tally fs o := by
  obtain ⟨r, hr, rfl⟩ := exists_resolve_of_generate h
  have hkept := Collision.countP_resolve hr o
  have hall := dirs.countP_collected fs o
  rw [Generated.count, Generated.skippedOf, ← List.countP_eq_length_filter,
    ← List.countP_eq_length_filter]
  dsimp only
  rw [List.countP_append]
  omega

/-- A resolution keeps the order of what was collected. -/
theorem exists_split_of_generate (h : generate fs dirs policy layout = .ok g) :
    ∃ es cs, g.declarations = es ++ cs ∧ (∀ d ∈ es, d.origin = .entity) ∧
      ∀ d ∈ cs, d.origin = .component := by
  obtain ⟨r, hr, rfl⟩ := exists_resolve_of_generate h
  obtain ⟨es, cs, hkept, hes, hcs⟩ :=
    List.sublist_append_iff.mp (Collision.kept_sublist_of_resolve hr)
  refine ⟨es, cs, hkept, ?_, ?_⟩
  · intro d hd
    exact dirs.origin_of_entityWalk fs d (hes.subset hd)
  · intro d hd
    exact dirs.origin_of_componentWalk fs d (hcs.subset hd)

theorem length_add_skipped (h : generate fs dirs policy layout = .ok g) :
    g.declarations.length + g.skipped = dirs.tally fs .entity + dirs.tally fs .component := by
  have he := count_add_skippedOf h .entity
  have hc := count_add_skippedOf h .component
  have hd := g.length_declarations
  have hs := g.skipped_eq
  omega

/-- Nothing found is lost without a diagnostic: of each origin, what is declared and what is
skipped come to what was found. The total is one number for all policies that refuse nothing, and
entities come before components. -/
theorem generate_accounts_for_everything (fs : FileSystem) (dirs : SchemaDirectories)
    (layout : Layout) :
    (∀ policy g, generate fs dirs policy layout = .ok g →
      (∀ o, g.count o + g.skippedOf o = dirs.tally fs o) ∧
      ∃ es cs, g.declarations = es ++ cs ∧ (∀ d ∈ es, d.origin = .entity) ∧
        ∀ d ∈ cs, d.origin = .component) ∧
    ∀ policy ≠ .error, ∃ g, generate fs dirs policy layout = .ok g ∧
      g.declarations.length + g.skipped
        = dirs.tally fs .entity + dirs.tally fs .component := by
  refine ⟨?_, ?_⟩
  · intro policy g h
    exact ⟨count_add_skippedOf h, exists_split_of_generate h⟩
  · intro policy hp
    obtain ⟨r, hr⟩ := Collision.exists_resolve hp (dirs.collected fs)
    have h := generate_of_resolve layout hr
    exact ⟨_, h, length_add_skipped h⟩

/-- Two entities without schemas beside a hidden directory, and no components. -/
def FileSystem.twoEntities : FileSystem :=
  ofObjects
    [([utf8 "api"], .directory), ([utf8 "api", utf8 ".git"], .directory),
      ([utf8 "api", utf8 "post"], .directory), ([utf8 "api", utf8 "tag"], .directory)]
    (by decide) (by decide)

theorem tally_twoEntities :
    SchemaDirectories.atRoot.tally .twoEntities .entity = 2 ∧
      SchemaDirectories.atRoot.tally .twoEntities .component = 0 := by
  have he : discoverEntities .twoEntities (.ofString "/api")
      = .ok ⟨[.new (.ofString "/api") "post", .new (.ofString "/api") "tag"], []⟩ := by cbv
  have hc : discoverComponents .twoEntities (.ofString "/components")
      = .error ⟨.ofString "/components", .os (.ofString "/components") .notFound⟩ := by cbv
  rw [SchemaDirectories.tally, SchemaDirectories.tally, SchemaDirectories.atRoot, he, hc]
  exact ⟨rfl, rfl⟩

theorem twoEntities_accounted_for :
    ∃ g, generate .twoEntities .atRoot .lastWins .compact = .ok g ∧
      g.declarations.length + g.skipped = 2 ∧ g.count .entity + g.skippedOf .entity = 2 ∧
      g.count .component + g.skippedOf .component = 0 := by
  obtain ⟨he, hc⟩ := tally_twoEntities
  obtain ⟨hall, htotal⟩ := generate_accounts_for_everything .twoEntities .atRoot .compact
  obtain ⟨g, hg, hlength⟩ := htotal .lastWins (by decide)
  have hcount := (hall .lastWins g hg).1
  refine ⟨g, hg, ?_, ?_, ?_⟩
  · rw [hlength, he, hc]
  · rw [hcount, he]
  · rw [hcount, hc]

end ContentTypes
