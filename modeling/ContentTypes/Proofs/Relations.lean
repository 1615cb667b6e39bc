import ContentTypes.Proofs.Accounting
import ContentTypes.Proofs.Identifiers
import ContentTypes.Proofs.Schema
import ContentTypes.Proofs.Text
import Mathlib
/-!
Relations of a project. The second segment of a target is the singular name of an entity, and both
give one name, so a relation to an entity that was collected has the name of a declaration that is
emitted, whichever of several schemas of that name is kept.
-/

namespace ContentTypes

/-! ### Types of fields -/

namespace Declaration

variable {d d' : Declaration} {attributes : Attributes} {key : String}

theorem get?_collectInto_of_notMem (h : collectInto d attributes = .ok d')
    (hkey : key ∉ Table.keys attributes) : Table.get? key d'.fields = Table.get? key d.fields := by
  induction attributes generalizing d with
  | nil =>
    cases h
    rfl
  | cons a rest ih =>
    obtain ⟨key', entry⟩ := a
    rw [collectInto] at h
    cases ht : (Attribute.ofJson entry).typeExpression with
    | error e =>
      rw [ht] at h
      cases h
    | ok type =>
      rw [ht] at h
      simp only [Table.keys, List.map_cons, List.mem_cons, not_or] at hkey
      rw [ih h hkey.2, insert, Table.get?_put_of_ne hkey.1]

/-- Every attribute has its own type in what is collected. -/
theorem exists_type_of_collectInto (h : collectInto d attributes = .ok d')
    (hnodup : (Table.keys attributes).Nodup) {entry : Json} (hmem : (key, entry) ∈ attributes) :
    ∃ type, (Attribute.ofJson entry).typeExpression = .ok type ∧
      Table.get? key d'.fields = some type := by
  induction attributes generalizing d with
  | nil => cases hmem
  | cons a rest ih =>
    obtain ⟨key', entry'⟩ := a
    rw [Table.keys, List.map_cons, List.nodup_cons] at hnodup
    rw [collectInto] at h
    cases ht : (Attribute.ofJson entry').typeExpression with
    | error e =>
      rw [ht] at h
      cases h
    | ok type =>
      rw [ht] at h
      rcases List.mem_cons.mp hmem with heq | hmem
      · cases heq
        refine ⟨type, ht, ?_⟩
        rw [get?_collectInto_of_notMem h hnodup.1, insert, Table.get?_put_self]
      · exact ih h hnodup.2 hmem

end Declaration

/-! ### Where declarations come from -/

namespace Walk

theorem collect_of_collect {α : Type} {origin : Origin} {unit : String}
    {schema : Except Schema.LoadError α} {name : α → Except Casing.NamingError String}
    {attributes : α → Attributes} {d : Declaration} {s : α}
    (h : collect origin unit schema name attributes = .ok d) (hs : schema = .ok s) :
    Declaration.collect d.name origin (attributes s) = .ok d := by
  subst hs
  cases hn : name s with
  | error e => simp [collect, hn] at h
  | ok n =>
    cases hd : Declaration.collect n origin (attributes s) with
    | error e => simp [collect, hn, hd] at h
    | ok d' =>
      have hdd : d' = d := by simpa [collect, hn, hd] using h
      rw [← hdd, (Declaration.name_origin_of_collect hd).1, hd]

end Walk

/-- A unit with these attributes was collected as `d`. -/
inductive SchemaDirectories.Declares (dirs : SchemaDirectories) (fs : FileSystem)
    (d : Declaration) : Attributes → Prop
  | entity {u : EntityUnit} {s : EntitySchema} (found : u ∈ (dirs.foundEntities fs).units)
      (loaded : EntitySchema.load fs u.schemaPath = .ok s)
      (collected : Walk.collectEntity fs u = .ok d) : Declares dirs fs d s.attributes
  | component {u : ComponentUnit} {s : ComponentSchema}
      (found : u ∈ (dirs.foundComponents fs).units)
      (loaded : ComponentSchema.load fs u.path = .ok s)
      (collected : Walk.collectComponent fs u = .ok d) : Declares dirs fs d s.attributes

namespace SchemaDirectories

variable {fs : FileSystem} {dirs : SchemaDirectories} {d : Declaration}

theorem exists_declares_of_mem_collected (h : d ∈ dirs.collected fs) :
    ∃ attributes, dirs.Declares fs d attributes := by
  rcases List.mem_append.mp h with h | h
  · obtain ⟨u, hu, hcollect⟩ := List.mem_map.mp (Walk.mem_declarations_ofResults.mp h)
    obtain ⟨s, hload, -⟩ := Walk.exists_schema_of_collectEntity hcollect
    exact ⟨_, .entity hu hload hcollect⟩
  · obtain ⟨u, hu, hcollect⟩ := List.mem_map.mp (Walk.mem_declarations_ofResults.mp h)
    obtain ⟨s, hload, -⟩ := Walk.exists_schema_of_collect hcollect
    exact ⟨_, .component hu hload hcollect⟩

theorem Declares.exists_type {attributes : Attributes} (h : dirs.Declares fs d attributes)
    {key : String} {entry : Json} (hmem : (key, entry) ∈ attributes) :
    ∃ type, (Attribute.ofJson entry).typeExpression = .ok type ∧
      Table.get? key d.fields = some type := by
  cases h with
  | entity found loaded collected =>
    exact Declaration.exists_type_of_collectInto (Walk.collect_of_collect collected loaded)
      (EntitySchema.nodup_attributes loaded) hmem
  | component found loaded collected =>
    exact Declaration.exists_type_of_collectInto (Walk.collect_of_collect collected loaded)
      (ComponentSchema.nodup_attributes loaded) hmem

end SchemaDirectories

/-! ### Targets -/

namespace Attribute

/-- A target whose second segment is `s`: one segment stands before it, and any number after it. -/
def Targets (target s : String) : Prop :=
  '.' ∉ s.toList ∧ ∃ p rest : String, target = p ++ "." ++ s ++ rest ∧ '.' ∉ p.toList ∧
    (rest = "" ∨ ∃ more, rest = "." ++ more)

theorem secondSegment?_of_targets {target s : String} (h : Targets target s) :
    secondSegment? target = some s := by
  obtain ⟨hs, p, rest, rfl, hp, hrest⟩ := h
  have hrest' : ∀ c ∈ rest.toList.head?, c = '.' := by
    rcases hrest with rfl | ⟨more, rfl⟩
    · simp
    · simp [String.toList_append]
  have hlist : (p ++ "." ++ s ++ rest).toList = p.toList ++ '.' :: (s.toList ++ rest.toList) := by
    simp [String.toList_append]
  rw [secondSegment?, hlist, dropWhile_ne_append hp (by simp)]
  dsimp only
  rw [takeWhile_ne_append hs hrest', String.ofList_toList]

/-- A text up to its first point, and the point with all behind it. -/
theorem exists_cut_at_point (l : List Char) :
    ∃ p r, l = p ++ r ∧ l.takeWhile (· ≠ '.') = p ∧ l.dropWhile (· ≠ '.') = r ∧ '.' ∉ p ∧
      (r = [] ∨ ∃ more, r = '.' :: more) := by
  refine ⟨_, _, List.takeWhile_append_dropWhile.symm, rfl, rfl, ?_, ?_⟩
  · intro h
    simpa using List.mem_takeWhile_imp h
  · have hhead := List.head?_dropWhile_not (fun c => decide (c ≠ '.')) l
    cases hr : l.dropWhile fun c => decide (c ≠ '.') with
    | nil => exact .inl rfl
    | cons c more =>
      rw [hr] at hhead
      right
      exact ⟨more, by simpa using hhead⟩

theorem targets_of_secondSegment? {target s : String} (h : secondSegment? target = some s) :
    Targets target s := by
  obtain ⟨p, r, htarget, -, hdrop, hp, hr⟩ := exists_cut_at_point target.toList
  rw [secondSegment?, hdrop] at h
  rcases hr with rfl | ⟨t, rfl⟩
  · cases h
  · obtain ⟨q, more, rfl, htake, -, hq, hmore⟩ := exists_cut_at_point t
    dsimp only at h
    rw [htake] at h
    cases h
    refine ⟨by rwa [String.toList_ofList], String.ofList p, String.ofList more, ?_,
      by rwa [String.toList_ofList], ?_⟩
    · rw [← String.toList_inj, htarget]
      simp [String.toList_append]
    · rcases hmore with rfl | ⟨rest, rfl⟩
      · exact .inl rfl
      · right
        exact ⟨String.ofList rest, by simp⟩

theorem secondSegment?_eq_some_iff {target s : String} :
    secondSegment? target = some s ↔ Targets target s :=
  ⟨targets_of_secondSegment?, secondSegment?_of_targets⟩

/-- A relation has the name of the entity that it targets. -/
theorem typeExpression_relation {target s n : String} (h : Targets target s)
    (hn : Declaration.entityName s = .ok n) (cardinality : Option Cardinality) :
    (⟨false, .relation (some target) cardinality⟩ : Attribute).typeExpression
      = .ok (n ++ listMark (cardinality.any Cardinality.isPlural)) := by
  obtain ⟨name, hcase, rfl⟩ := Declaration.entityName_eq_ok_iff.mp hn
  simp only [typeExpression, kindType, relationType, Option.getD_some, secondSegment?_of_targets h,
    Attribute.caseName, hcase]
  rfl

theorem listMark_isPlural (cardinality : Option Cardinality) :
    listMark (cardinality.any Cardinality.isPlural)
      = if cardinality = some .oneToMany ∨ cardinality = some .manyToMany then "[]" else "" := by
  rcases cardinality with _ | c
  · rfl
  · cases c <;> rfl

end Attribute

/-! ### What is emitted -/

variable {fs : FileSystem} {dirs : SchemaDirectories} {policy : CollisionPolicy}
  {layout : Layout} {g : Generated} {d e : Declaration}

theorem mem_collected_of_generate (h : generate fs dirs policy layout = .ok g)
    (hd : d ∈ g.declarations) : d ∈ dirs.collected fs := by
  obtain ⟨r, hr, rfl⟩ := exists_resolve_of_generate h
  exact (Collision.kept_sublist_of_resolve hr).subset hd

/-- A resolution that drops an entity keeps one of its name. -/
theorem exists_emitted_of_mem_entityWalk (h : generate fs dirs policy layout = .ok g)
    (he : e ∈ (dirs.entityWalk fs).declarations) :
    ∃ n ∈ g.declarations, n.origin = .entity ∧ n.name = e.name := by
  have hname : e.name ∈ Collision.names g.declarations :=
    (mem_names_generate h).mpr
      (Collision.mem_names_iff.mpr ⟨e, List.mem_append_left _ he, rfl⟩)
  obtain ⟨n, hn, hne⟩ := Collision.mem_names_iff.mp hname
  refine ⟨n, hn, ?_, hne⟩
  rcases List.mem_append.mp (mem_collected_of_generate h hn) with hentity | hcomponent
  · exact dirs.origin_of_entityWalk fs n hentity
  · exact absurd (Collision.mem_names_iff.mpr ⟨n, hcomponent, hne⟩)
      (Walk.name_notMem_components he)

/-- If an entity was collected, kept or not, every relation to it in what is emitted has the name of
an emitted entity as its type, with the mark of a list exactly for the two plural cardinalities. And
whatever is emitted comes from a unit whose attributes its fields are. -/
theorem relations_reach_emitted (h : generate fs dirs policy layout = .ok g)
    {u : EntityUnit} {schema : EntitySchema} (hu : u ∈ (dirs.foundEntities fs).units)
    (hload : EntitySchema.load fs u.schemaPath = .ok schema)
    (hcollect : Walk.collectEntity fs u = .ok e) :
    ∃ n ∈ g.declarations, n.origin = .entity ∧ IsIdentifier "API" n.name ∧
      ∀ d ∈ g.declarations, (∃ attributes, dirs.Declares fs d attributes) ∧
        ∀ attributes, dirs.Declares fs d attributes →
          ∀ key entry target cardinality, (key, entry) ∈ attributes →
            Attribute.ofJson entry = ⟨false, .relation (some target) cardinality⟩ →
            Attribute.Targets target schema.singularName →
            Table.get? key d.fields = some (n.name ++
              if cardinality = some .oneToMany ∨ cardinality = some .manyToMany then "[]"
              else "") := by
  have he : e ∈ (dirs.entityWalk fs).declarations :=
    Walk.mem_declarations_ofResults.mpr (List.mem_map.mpr ⟨u, hu, hcollect⟩)
  obtain ⟨n, hn, horigin, hname⟩ := exists_emitted_of_mem_entityWalk h he
  obtain ⟨s, hload', hentity⟩ := Walk.exists_schema_of_collectEntity hcollect
  rw [hload] at hload'
  cases hload'
  refine ⟨n, hn, horigin, hname ▸ Declaration.isIdentifier_entityName hentity, ?_⟩
  intro d hd
  refine ⟨SchemaDirectories.exists_declares_of_mem_collected (mem_collected_of_generate h hd), ?_⟩
  intro attributes hdeclares key entry target cardinality hmem hrelation htargets
  obtain ⟨type, htype, hfield⟩ := hdeclares.exists_type hmem
  rw [hrelation, Attribute.typeExpression_relation htargets hentity,
    Attribute.listMark_isPlural] at htype
  rw [hfield, hname, Except.ok.inj htype]

/-! ### An entity related to itself -/

/-- The text of a schema with a relation of the entity `page` to itself. -/
def schemaOfTree : String :=
  "\x7b\"info\":\x7b\"singularName\":\"page\"\x7d,\"attributes\":\x7b\"children\":"
    ++ "\x7b\"type\":\"relation\",\"relation\":\"oneToMany\",\"target\":\"api::page.page.v2\"\x7d\x7d\x7d"

/-- What the schema says of the children. -/
def childrenEntry : Json :=
  .object [("type", .string "relation"), ("relation", .string "oneToMany"),
    ("target", .string "api::page.page.v2")]

set_option maxRecDepth 4000 in
theorem ofText_schemaOfTree :
    EntitySchema.ofText schemaOfTree = .ok ⟨"page", [("children", childrenEntry)]⟩ := by
  with_unfolding_all rfl

theorem targets_page : Attribute.Targets "api::page.page.v2" "page" :=
  ⟨by decide, "api::page", ".v2", by decide, by decide, .inr ⟨"v2", by decide⟩⟩

theorem ofJson_childrenEntry : Attribute.ofJson childrenEntry
    = ⟨false, .relation (some "api::page.page.v2") (some .oneToMany)⟩ := by
  cbv

theorem collectEntity_schemaOfTree :
    Walk.collectEntity (.loneEntity schemaOfTree) (.new (.ofString "/api") "page")
      = .ok ⟨"APIPage", .entity, [("id", "number"), ("children", "APIPage[]")]⟩ := by
  have hn : Declaration.entityName "page" = .ok "APIPage" :=
    Declaration.entityName_eq_ok_iff.mpr
      ⟨"Page", Casing.caseName_eq_ok_iff.mpr (by decide), rfl⟩
  have htype := Attribute.typeExpression_relation targets_page hn (some .oneToMany)
  rw [← ofJson_childrenEntry] at htype
  simp only [Walk.collectEntity, load_loneEntity ofText_schemaOfTree, Walk.collect, hn,
    Declaration.collect, Declaration.collectInto, htype]
  rfl

theorem relation_reaches_page :
    ∃ g, generate (.loneEntity schemaOfTree) .atRoot .lastWins .compact = .ok g ∧
      ∃ n ∈ g.declarations, n.origin = .entity ∧ IsIdentifier "API" n.name ∧
        ∃ d ∈ g.declarations, Table.get? "children" d.fields = some (n.name ++ "[]") := by
  have hr : Collision.resolve .lastWins
      (SchemaDirectories.atRoot.collected (.loneEntity schemaOfTree))
        = .ok ⟨[⟨"APIPage", .entity, [("id", "number"), ("children", "APIPage[]")]⟩], []⟩ := by
    rw [collected_of_collectEntity collectEntity_schemaOfTree]
    rfl
  have hg := generate_of_resolve .compact hr
  have hu : EntityUnit.new (.ofString "/api") "page"
      ∈ (SchemaDirectories.atRoot.foundEntities (.loneEntity schemaOfTree)).units := by
    rw [foundEntities_loneEntity]
    exact List.mem_singleton_self _
  obtain ⟨n, hn, horigin, hid, hall⟩ := relations_reach_emitted hg hu
    (load_loneEntity ofText_schemaOfTree) collectEntity_schemaOfTree
  refine ⟨_, hg, n, hn, horigin, hid, _, List.mem_singleton_self _, ?_⟩
  obtain ⟨-, hfields⟩ := hall _ (List.mem_singleton_self _)
  exact hfields _
    (.entity hu (load_loneEntity ofText_schemaOfTree) collectEntity_schemaOfTree)
    _ _ _ _ (List.mem_singleton_self _) ofJson_childrenEntry targets_page

end ContentTypes
