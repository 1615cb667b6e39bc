import ContentTypes.Generation
import Mathlib
/-!
What a generation is made of. Every unit of a walk gives one result, either a declaration or a
diagnostic, that carries the origin of the walk, and a declaration has the name that was formed
for its unit. A generation that succeeds is the resolution of what its two walks collected.
-/

namespace ContentTypes

namespace Declaration

variable {d d' : Declaration} {attributes : Attributes}

@[simp] theorem insert_name (key type : String) (d : Declaration) :
    (d.insert key type).name = d.name := rfl

@[simp] theorem insert_origin (key type : String) (d : Declaration) :
    (d.insert key type).origin = d.origin := rfl

/-- Attributes change nothing but the fields. -/
theorem name_origin_of_collectInto (h : collectInto d attributes = .ok d') :
    d'.name = d.name ∧ d'.origin = d.origin := by
  induction attributes generalizing d with
  | nil =>
    cases h
    exact ⟨rfl, rfl⟩
  | cons a rest ih =>
    obtain ⟨key, entry⟩ := a
    rw [collectInto] at h
    cases ht : (Attribute.ofJson entry).typeExpression with
    | error e =>
      rw [ht] at h
      cases h
    | ok type =>
      rw [ht] at h
      simpa using ih h

theorem name_origin_of_collect {name : String} {origin : Origin}
    (h : collect name origin attributes = .ok d) : d.name = name ∧ d.origin = origin :=
  name_origin_of_collectInto h

end Declaration

/-! ### Walks -/

namespace Walk

/-- The origin of a declaration, or of the diagnostic in its place. -/
def resultOrigin : Except Diagnostic Declaration → Origin
  | .ok d => d.origin
  | .error e => e.origin

@[simp] theorem resultOrigin_ok (d : Declaration) : resultOrigin (.ok d) = d.origin := rfl

@[simp] theorem resultOrigin_error (e : Diagnostic) : resultOrigin (.error e) = e.origin := rfl

section
variable {α : Type} {origin : Origin} {unit : String} {schema : Except Schema.LoadError α}
  {name : α → Except Casing.NamingError String} {attributes : α → Attributes}

/-- A declaration stands for a schema that was loaded, under the name formed for it. -/
theorem exists_schema_of_collect {d : Declaration}
    (h : collect origin unit schema name attributes = .ok d) :
    ∃ s, schema = .ok s ∧ name s = .ok d.name := by
  cases schema with
  | error e => cases h
  | ok s =>
    refine ⟨s, rfl, ?_⟩
    cases hn : name s with
    | error e => simp [collect, hn] at h
    | ok n =>
      cases hd : Declaration.collect n origin (attributes s) with
      | error e => simp [collect, hn, hd] at h
      | ok d' =>
        have hdd : d' = d := by simpa [collect, hn, hd] using h
        rw [← hdd, (Declaration.name_origin_of_collect hd).1]

theorem resultOrigin_collect :
    resultOrigin (collect origin unit schema name attributes) = origin := by
  cases schema with
  | error e => rfl
  | ok s =>
    cases hn : name s with
    | error e => simp [collect, hn]
    | ok n =>
      cases hd : Declaration.collect n origin (attributes s) with
      | error e => simp [collect, hn, hd]
      | ok d =>
        have ho := (Declaration.name_origin_of_collect hd).2
        simp [collect, hn, hd, ho]

end

theorem exists_schema_of_collectEntity {fs : FileSystem} {u : EntityUnit} {d : Declaration}
    (h : collectEntity fs u = .ok d) :
    ∃ s, EntitySchema.load fs u.schemaPath = .ok s ∧
      Declaration.entityName s.singularName = .ok d.name :=
  exists_schema_of_collect h

theorem name_of_collectComponent {fs : FileSystem} {u : ComponentUnit} {d : Declaration}
    (h : collectComponent fs u = .ok d) :
    Declaration.componentName u.group u.stem = .ok d.name := by
  obtain ⟨-, -, hname⟩ := exists_schema_of_collect h
  exact hname

@[simp] theorem ofResults_cons_ok (d : Declaration)
    (results : List (Except Diagnostic Declaration)) :
    ofResults (.ok d :: results)
      = ⟨d :: (ofResults results).declarations, (ofResults results).diagnostics⟩ := rfl

@[simp] theorem ofResults_cons_error (e : Diagnostic)
    (results : List (Except Diagnostic Declaration)) :
    ofResults (.error e :: results)
      = ⟨(ofResults results).declarations, e :: (ofResults results).diagnostics⟩ := rfl

theorem mem_declarations_ofResults {d : Declaration}
    {results : List (Except Diagnostic Declaration)} :
    d ∈ (ofResults results).declarations ↔ .ok d ∈ results := by
  induction results with
  | nil => simp [ofResults]
  | cons r results ih => cases r <;> simp [ih]

/-- A walk gives as many declarations and diagnostics of an origin as it has results of it. -/
theorem countP_ofResults (o : Origin) (results : List (Except Diagnostic Declaration)) :
    (ofResults results).declarations.countP (·.origin = o)
        + (ofResults results).diagnostics.countP (·.origin = o)
      = results.countP (resultOrigin · = o) := by
  induction results with
  | nil => rfl
  | cons r results ih =>
    rw [List.countP_cons, ← ih]
    cases r with
    | ok d =>
      rw [ofResults_cons_ok, resultOrigin_ok]
      dsimp only
      rw [List.countP_cons]
      omega
    | error e =>
      rw [ofResults_cons_error, resultOrigin_error]
      dsimp only
      rw [List.countP_cons]
      omega

end Walk

/-! ### Generations -/

namespace SchemaDirectories

def foundEntities (dirs : SchemaDirectories) (fs : FileSystem) : Discovered EntityUnit :=
  .ofResult .entity (discoverEntities fs dirs.entities)

def foundComponents (dirs : SchemaDirectories) (fs : FileSystem) : Discovered ComponentUnit :=
  .ofResult .component (discoverComponents fs dirs.components)

def entityWalk (dirs : SchemaDirectories) (fs : FileSystem) : Walk :=
  .entities fs (dirs.foundEntities fs).units

def componentWalk (dirs : SchemaDirectories) (fs : FileSystem) : Walk :=
  .components fs (dirs.foundComponents fs).units

/-- What is resolved: the declarations of all units, those of entities first. -/
def collected (dirs : SchemaDirectories) (fs : FileSystem) : List Declaration :=
  (dirs.entityWalk fs).declarations ++ (dirs.componentWalk fs).declarations

/-- What is reported before names are resolved. -/
def reported (dirs : SchemaDirectories) (fs : FileSystem) : List Diagnostic :=
  (dirs.foundEntities fs).diagnostics ++ (dirs.foundComponents fs).diagnostics
    ++ (dirs.entityWalk fs).diagnostics ++ (dirs.componentWalk fs).diagnostics

/-- Both right below the root. -/
def atRoot : SchemaDirectories :=
  ⟨.ofString "/api", .ofString "/components"⟩

end SchemaDirectories

variable {fs : FileSystem} {dirs : SchemaDirectories} {policy : CollisionPolicy}
  {layout : Layout} {g : Generated}

theorem generate_eq (fs : FileSystem) (dirs : SchemaDirectories) (policy : CollisionPolicy)
    (layout : Layout) :
    generate fs dirs policy layout = (Collision.resolve policy (dirs.collected fs)).map fun r =>
      ⟨r.kept, dirs.reported fs ++ r.diagnostics, layout.text r.kept⟩ := by
  simp only [generate, SchemaDirectories.collected, SchemaDirectories.reported,
    SchemaDirectories.entityWalk, SchemaDirectories.componentWalk,
    SchemaDirectories.foundEntities, SchemaDirectories.foundComponents]
  split <;> rename_i h <;> rw [h] <;> rfl

theorem generate_of_resolve (layout : Layout) {r : Collision.Resolution}
    (h : Collision.resolve policy (dirs.collected fs) = .ok r) :
    generate fs dirs policy layout
      = .ok ⟨r.kept, dirs.reported fs ++ r.diagnostics, layout.text r.kept⟩ := by
  rw [generate_eq, h]
  rfl

/-- A generation stops only where its resolution does. -/
theorem exists_resolve_of_generate (h : generate fs dirs policy layout = .ok g) :
    ∃ r, Collision.resolve policy (dirs.collected fs) = .ok r ∧
      g = ⟨r.kept, dirs.reported fs ++ r.diagnostics, layout.text r.kept⟩ := by
  rw [generate_eq] at h
  cases hr : Collision.resolve policy (dirs.collected fs) with
  | ok r =>
    rw [hr] at h
    exact ⟨r, rfl, (Except.ok.inj h).symm⟩
  | error e =>
    rw [hr] at h
    cases h

end ContentTypes
