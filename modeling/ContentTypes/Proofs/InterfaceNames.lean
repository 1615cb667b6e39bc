import ContentTypes.Proofs.ComponentNames
import ContentTypes.Proofs.Generation
import ContentTypes.Proofs.Resolution
/-!
The names of interfaces in a generated text. A resolution sees only what was collected, so the
supporting types behind it can still share a name with an entity. Components never do.
-/

namespace ContentTypes

/-- The singular names of entities, in their case, that give the name of a supporting type. -/
def reservedNames : List String :=
  ["Response", "ResponseCollection", "ResponseCollectionMetadata"]

theorem entityStem_append_mem_names_iff (n : String) :
    Attribute.entityStem ++ n ∈ SupportingType.names ↔ n ∈ reservedNames := by
  have hmedia : Attribute.entityStem ++ n ≠ "Media" := by
    intro h
    have hhead := congrArg (fun s => s.toList.head?) h
    simp [Attribute.entityStem, String.toList_append] at hhead
  have hnames : SupportingType.names =
      ["Media", Attribute.entityStem ++ "ResponseCollectionMetadata",
        Attribute.entityStem ++ "Response", Attribute.entityStem ++ "ResponseCollection"] := by
    decide
  have hinj (m : String) : Attribute.entityStem ++ n = Attribute.entityStem ++ m ↔ n = m := by
    simp [← String.toList_inj, String.toList_append]
  simp only [hnames, reservedNames, List.mem_cons, List.not_mem_nil, or_false, hmedia, hinj,
    false_or]
  constructor
  · rintro (h | h | h)
    · exact .inr (.inr h)
    · exact .inl h
    · exact .inr (.inl h)
  · rintro (h | h | h)
    · exact .inr (.inl h)
    · exact .inr (.inr h)
    · exact .inl h

theorem componentName_notMem_names {group stem n : String}
    (h : Declaration.componentName group stem = .ok n) : n ∉ SupportingType.names := by
  have hhead : ∀ m ∈ SupportingType.names, m.toList.head? ≠ some 'C' := by decide
  rw [Declaration.componentName_eq] at h
  intro hn
  apply hhead n hn
  rw [← Except.ok.inj h]
  simp [Attribute.componentStem, String.toList_append]

/-- An entity that is collected under the name of a supporting type. -/
def EntityUnit.TakesReserved (fs : FileSystem) (u : EntityUnit) : Prop :=
  ∃ s d name, EntitySchema.load fs u.schemaPath = .ok s ∧ Walk.collectEntity fs u = .ok d ∧
    Casing.caseName s.singularName = .ok name ∧ name ∈ reservedNames

theorem Declaration.entityName_eq_ok_iff {singularName n : String} :
    entityName singularName = .ok n ↔
      ∃ name, Casing.caseName singularName = .ok name ∧ Attribute.entityStem ++ name = n := by
  rw [entityName]
  cases Casing.caseName singularName <;> simp [Except.map]

theorem EntityUnit.takesReserved_iff {fs : FileSystem} {u : EntityUnit} {d : Declaration}
    (h : Walk.collectEntity fs u = .ok d) :
    u.TakesReserved fs ↔ d.name ∈ SupportingType.names := by
  obtain ⟨s, hs, hname⟩ := Walk.exists_schema_of_collectEntity h
  obtain ⟨name, hcase, heq⟩ := Declaration.entityName_eq_ok_iff.mp hname
  rw [← heq, entityStem_append_mem_names_iff]
  constructor
  · rintro ⟨s', -, name', hs', -, hcase', hmem⟩
    rw [hs] at hs'
    cases hs'
    rw [hcase] at hcase'
    cases hcase'
    exact hmem
  · intro hmem
    exact ⟨s, d, name, hs, h, hcase, hmem⟩

/-- A collected name is the name of a supporting type only for an entity that takes it. -/
theorem exists_mem_collected_iff (fs : FileSystem) (dirs : SchemaDirectories) :
    (∃ n ∈ Collision.names (dirs.collected fs), n ∈ SupportingType.names) ↔
      ∃ u ∈ (dirs.foundEntities fs).units, u.TakesReserved fs := by
  constructor
  · rintro ⟨n, hn, hs⟩
    obtain ⟨d, hd, rfl⟩ := Collision.mem_names_iff.mp hn
    rcases List.mem_append.mp hd with hd | hd
    · obtain ⟨u, hu, hcollect⟩ := List.mem_map.mp (Walk.mem_declarations_ofResults.mp hd)
      exact ⟨u, hu, (EntityUnit.takesReserved_iff hcollect).mpr hs⟩
    · obtain ⟨u, -, hcollect⟩ := List.mem_map.mp (Walk.mem_declarations_ofResults.mp hd)
      exact absurd hs (componentName_notMem_names (Walk.name_of_collectComponent hcollect))
  · rintro ⟨u, hu, htakes⟩
    obtain ⟨s, d, name, hs, hcollect, hcase, hmem⟩ := htakes
    have hd : d ∈ (dirs.entityWalk fs).declarations :=
      Walk.mem_declarations_ofResults.mpr (List.mem_map.mpr ⟨u, hu, hcollect⟩)
    refine ⟨d.name, Collision.mem_names_iff.mpr ⟨d, List.mem_append_left _ hd, rfl⟩, ?_⟩
    exact (EntityUnit.takesReserved_iff hcollect).mp ⟨s, d, name, hs, hcollect, hcase, hmem⟩

/-- All interfaces of the text, with those of the supporting types last. -/
def Generated.interfaceNames (g : Generated) : List String :=
  Collision.names g.declarations ++ SupportingType.names

theorem Generated.nodup_interfaceNames_iff {g : Generated}
    (h : (Collision.names g.declarations).Nodup) :
    g.interfaceNames.Nodup ↔
      ¬ ∃ n ∈ Collision.names g.declarations, n ∈ SupportingType.names := by
  have hsupport : SupportingType.names.Nodup := by decide
  rw [interfaceNames, List.nodup_append]
  constructor
  · rintro ⟨-, -, hdisjoint⟩ ⟨n, hn, hs⟩
    exact hdisjoint n hn n hs rfl
  · intro hnone
    refine ⟨h, hsupport, ?_⟩
    rintro n hn m hm rfl
    exact hnone ⟨n, hn, hm⟩

variable {fs : FileSystem} {dirs : SchemaDirectories} {policy : CollisionPolicy}
  {layout : Layout} {g : Generated}

theorem text_of_generate (h : generate fs dirs policy layout = .ok g) :
    g.text = layout.text g.declarations := by
  obtain ⟨r, -, rfl⟩ := exists_resolve_of_generate h
  rfl

theorem mem_names_generate (h : generate fs dirs policy layout = .ok g) {n : String} :
    n ∈ Collision.names g.declarations ↔ n ∈ Collision.names (dirs.collected fs) := by
  obtain ⟨r, hr, rfl⟩ := exists_resolve_of_generate h
  exact Collision.mem_names_resolve hr

theorem nodup_names_generate (hp : policy ≠ .keep) (h : generate fs dirs policy layout = .ok g) :
    (Collision.names g.declarations).Nodup := by
  obtain ⟨r, hr, rfl⟩ := exists_resolve_of_generate h
  exact Collision.nodup_names_resolve hp hr

/-! ### A project of one entity -/

def FileSystem.loneEntity (schema : String) : FileSystem :=
  ofObjects
    [([utf8 "api"], .directory), ([utf8 "api", utf8 "page"], .directory),
      ([utf8 "api", utf8 "page", utf8 "content-types"], .directory),
      ([utf8 "api", utf8 "page", utf8 "content-types", utf8 "page"], .directory),
      ([utf8 "api", utf8 "page", utf8 "content-types", utf8 "page", utf8 "schema.json"],
        .file schema.toUTF8)]
    (by simp only [Table.keys, List.map_cons, List.map_nil]; decide)
    (by
      simp only [List.forall_mem_cons]
      refine ⟨?_, ?_, ?_, ?_, ?_, nofun⟩
      all_goals exact ⟨⟨by cbv, by decide⟩, trivial⟩)

section
variable {schema singularName name : String}

theorem readText_loneEntity (schema : String) :
    (FileSystem.loneEntity schema).readText
      (EntityUnit.new (.ofString "/api") "page").schemaPath = .ok schema := by
  have hbytes : (FileSystem.loneEntity schema).readBytes
      (EntityUnit.new (.ofString "/api") "page").schemaPath = .ok schema.toUTF8 := by cbv
  have htext : String.fromUTF8? schema.toUTF8 = some schema := by
    simp [String.fromUTF8?, String.fromUTF8, schema.isValidUTF8]
  simp only [FileSystem.readText, hbytes, htext]

theorem load_loneEntity {s : EntitySchema} (hs : EntitySchema.ofText schema = .ok s) :
    EntitySchema.load (.loneEntity schema)
      (EntityUnit.new (.ofString "/api") "page").schemaPath = .ok s := by
  rw [EntitySchema.ofText] at hs
  simp only [EntitySchema.load, Schema.load, readText_loneEntity, hs]
  rfl

theorem foundEntities_loneEntity (schema : String) :
    SchemaDirectories.atRoot.foundEntities (.loneEntity schema)
      = ⟨[.new (.ofString "/api") "page"], []⟩ := by
  have he : discoverEntities (.loneEntity schema) (.ofString "/api")
      = .ok ⟨[.new (.ofString "/api") "page"], []⟩ := by cbv
  simp only [SchemaDirectories.atRoot, SchemaDirectories.foundEntities, he, Discovered.ofResult]

/-- The entity is all that is collected. -/
theorem collected_of_collectEntity {d : Declaration}
    (h : Walk.collectEntity (.loneEntity schema) (.new (.ofString "/api") "page") = .ok d) :
    SchemaDirectories.atRoot.collected (.loneEntity schema) = [d] := by
  have hc : discoverComponents (.loneEntity schema) (.ofString "/components")
      = .error ⟨.ofString "/components", .os (.ofString "/components") .notFound⟩ := by cbv
  rw [SchemaDirectories.collected, SchemaDirectories.entityWalk, foundEntities_loneEntity]
  simp only [SchemaDirectories.atRoot, SchemaDirectories.componentWalk,
    SchemaDirectories.foundComponents, hc, Discovered.ofResult, Walk.entities, List.map_cons,
    List.map_nil, h]
  rfl

theorem collected_loneEntity (hs : EntitySchema.ofText schema = .ok ⟨singularName, []⟩)
    (hn : Casing.caseName singularName = .ok name) :
    SchemaDirectories.atRoot.collected (.loneEntity schema)
      = [.new (Attribute.entityStem ++ name) .entity] := by
  apply collected_of_collectEntity
  simp only [Walk.collectEntity, load_loneEntity hs, Walk.collect, Declaration.entityName, hn]
  rfl

theorem generate_loneEntity (hs : EntitySchema.ofText schema = .ok ⟨singularName, []⟩)
    (hn : Casing.caseName singularName = .ok name) (policy : CollisionPolicy) (layout : Layout) :
    ∃ g, generate (.loneEntity schema) .atRoot policy layout = .ok g ∧
      g.interfaceNames = (Attribute.entityStem ++ name) :: SupportingType.names := by
  have hr : Collision.resolve policy [.new (Attribute.entityStem ++ name) .entity]
      = .ok ⟨[.new (Attribute.entityStem ++ name) .entity], []⟩ := rfl
  rw [← collected_loneEntity hs hn] at hr
  refine ⟨_, generate_of_resolve layout hr, ?_⟩
  rw [Generated.interfaceNames, collected_loneEntity hs hn]
  rfl

end

/-- The text of a schema that gives no more than a name. -/
def schemaNamed (singularName : String) : String :=
  "\x7b\"info\": \x7b\"singularName\": \"" ++ singularName ++ "\"\x7d\x7d"

/-! ### Distinct names -/

/-- The text is that of the declarations and of the supporting types behind them. Declarations
have distinct names, and the supporting types share none of them unless an entity takes it. -/
theorem interfaceNames_distinct_iff (hp : policy ≠ .keep)
    (h : generate fs dirs policy layout = .ok g) :
    g.text = layout.text g.declarations ∧ (Collision.names g.declarations).Nodup ∧
      (g.interfaceNames.Nodup ↔ ∀ u ∈ (dirs.foundEntities fs).units, ¬ u.TakesReserved fs) := by
  have hnodup := nodup_names_generate hp h
  refine ⟨text_of_generate h, hnodup, ?_⟩
  rw [Generated.nodup_interfaceNames_iff hnodup]
  simp only [mem_names_generate h, exists_mem_collected_iff, not_exists, not_and]

theorem interfaceNames_distinct_page :
    ∃ g, generate (.loneEntity (schemaNamed "page")) .atRoot .error .pretty = .ok g ∧
      g.text = Layout.pretty.text g.declarations ∧ (Collision.names g.declarations).Nodup ∧
      (g.interfaceNames.Nodup ↔
        ∀ u ∈ (SchemaDirectories.atRoot.foundEntities (.loneEntity (schemaNamed "page"))).units,
          ¬ u.TakesReserved (.loneEntity (schemaNamed "page"))) := by
  have hs : EntitySchema.ofText (schemaNamed "page") = .ok ⟨"page", []⟩ := by
    with_unfolding_all rfl
  have hn : Casing.caseName "page" = .ok "Page" := Casing.caseName_eq_ok_iff.mpr (by decide)
  obtain ⟨g, hg, -⟩ := generate_loneEntity hs hn .error .pretty
  exact ⟨g, hg, interfaceNames_distinct_iff (by decide) hg⟩

/-- The singular name `response` gives a name that the supporting types have as well. -/
theorem interfaceNames_response_repeated :
    ∃ g, generate (.loneEntity (schemaNamed "response")) .atRoot .error .pretty = .ok g ∧
      ¬ g.interfaceNames.Nodup := by
  have hs : EntitySchema.ofText (schemaNamed "response") = .ok ⟨"response", []⟩ := by
    with_unfolding_all rfl
  have hn : Casing.caseName "response" = .ok "Response" :=
    Casing.caseName_eq_ok_iff.mpr (by decide)
  obtain ⟨g, hg, hnames⟩ := generate_loneEntity hs hn .error .pretty
  refine ⟨g, hg, ?_⟩
  rw [hnames]
  decide

end ContentTypes
