import ContentTypes.Proofs.Insertions
import ContentTypes.Proofs.Relations
import Mathlib
/-!
Entities that are left out. A schema that loads is left out for its name, which must hold a letter
or digit, or for an attribute whose reference gives no name; nothing else in a schema, of whatever
shape, keeps it from being declared. One diagnostic tells the first of these causes.
-/

namespace ContentTypes

/-! ### Names -/

theorem Casing.caseName_eq_error_iff {s : String} {e : NamingError} :
    caseName s = .error e ↔ (∀ c ∈ s.toList, ¬ c.isAlphanum) ∧ e = .noSegments s := by
  rw [caseName_eq, ← spelling_eq_nil_iff]
  by_cases h : spelling s.toList = []
  · rw [if_pos h]
    simp [h, eq_comm]
  · simp [h]

section
variable {ε ε' α β : Type}

theorem map_eq_error_iff {x : Except ε α} {f : α → β} {e : ε} :
    x.map f = .error e ↔ x = .error e := by
  cases x <;> simp [Except.map]

theorem mapError_eq_error_iff {x : Except ε α} {f : ε → ε'} {e : ε'} :
    x.mapError f = .error e ↔ ∃ cause, x = .error cause ∧ f cause = e := by
  cases x <;> simp [Except.mapError]

end

theorem Declaration.entityName_eq_error_iff {s : String} {e : Casing.NamingError} :
    entityName s = .error e ↔ (∀ c ∈ s.toList, ¬ c.isAlphanum) ∧ e = .noSegments s := by
  rw [entityName, map_eq_error_iff, Casing.caseName_eq_error_iff]

namespace Attribute

variable {entry : Json} {e : TypeError}

theorem caseName_eq_error_iff {s : String} :
    caseName s = .error e ↔ (∀ c ∈ s.toList, ¬ c.isAlphanum) ∧ e = .naming (.noSegments s) := by
  rw [caseName, mapError_eq_error_iff]
  constructor
  · rintro ⟨cause, hcase, rfl⟩
    obtain ⟨hs, rfl⟩ := Casing.caseName_eq_error_iff.mp hcase
    exact ⟨hs, rfl⟩
  · rintro ⟨hs, rfl⟩
    exact ⟨_, Casing.caseName_eq_error_iff.mpr ⟨hs, rfl⟩, rfl⟩

/-! ### Attributes without a type -/

/-- The target of a relation, empty where it is missing or no text. -/
def targetOf (entry : Json) : String :=
  (stringField "target" entry).getD ""

/-- What keeps the entry of a component or a relation from having a type. -/
inductive Unnamed (entry : Json) : TypeError → Prop
  | missingReference (tag : entry.field? "type" = some (.string "component"))
      (missing : ∀ r, entry.field? "component" ≠ some (.string r)) :
      Unnamed entry .missingComponent
  | reference {r : String} (tag : entry.field? "type" = some (.string "component"))
      (present : entry.field? "component" = some (.string r))
      (unnamed : ∀ c ∈ r.toList, ¬ c.isAlphanum) : Unnamed entry (.naming (.noSegments r))
  | missingSegment (tag : entry.field? "type" = some (.string "relation"))
      (missing : ∀ s, ¬ Targets (targetOf entry) s) :
      Unnamed entry (.missingTargetSegment (targetOf entry))
  | segment {s : String} (tag : entry.field? "type" = some (.string "relation"))
      (present : Targets (targetOf entry) s)
      (unnamed : ∀ c ∈ s.toList, ¬ c.isAlphanum) : Unnamed entry (.naming (.noSegments s))

/-- An entry has no type if its reference gives no name and no plugin provides it. -/
def LacksType (entry : Json) (e : TypeError) : Prop :=
  (∀ v, entry.field? "customField" = some v → v.isTruthy = false) ∧ Unnamed entry e

/-! ### Types that cannot be formed -/

theorem componentType_eq_error_iff {reference : Option String} {repeatable : Bool} :
    componentType reference repeatable = .error e ↔
      (reference = none ∧ e = .missingComponent) ∨
        ∃ r, reference = some r ∧ (∀ c ∈ r.toList, ¬ c.isAlphanum) ∧
          e = .naming (.noSegments r) := by
  cases reference with
  | none => simp [componentType, eq_comm (b := e)]
  | some r => simp [componentType, map_eq_error_iff, caseName_eq_error_iff]

theorem relationType_eq_error_iff {target : Option String} {cardinality : Option Cardinality} :
    relationType target cardinality = .error e ↔
      ((∀ s, ¬ Targets (target.getD "") s) ∧ e = .missingTargetSegment (target.getD "")) ∨
        ∃ s, Targets (target.getD "") s ∧ (∀ c ∈ s.toList, ¬ c.isAlphanum) ∧
          e = .naming (.noSegments s) := by
  simp only [← secondSegment?_eq_some_iff]
  rw [relationType]
  cases secondSegment? (target.getD "") with
  | none => simp [eq_comm (b := e)]
  | some s => simp [map_eq_error_iff, caseName_eq_error_iff]

theorem kindOf_component (h : entry.field? "type" = some (.string "component")) :
    kindOf entry = .component (stringField "component" entry) (flag "repeatable" entry) := by
  simp [kindOf, h]

theorem kindOf_relation (h : entry.field? "type" = some (.string "relation")) :
    kindOf entry = .relation (stringField "target" entry)
      ((stringField "relation" entry).map Cardinality.ofString) := by
  simp [kindOf, h]

/-- Only the types of components and relations can fail. -/
theorem tag_of_kindType_error (h : kindType (kindOf entry) = .error e) :
    entry.field? "type" = some (.string "component") ∨
      entry.field? "type" = some (.string "relation") := by
  rw [kindOf] at h
  split at h
  case h_14 htag => exact .inl htag
  case h_15 htag => exact .inr htag
  all_goals cases h

theorem stringField_eq_some_iff {name r : String} :
    stringField name entry = some r ↔ entry.field? name = some (.string r) := by
  rw [stringField]
  cases entry.field? name with
  | none => simp
  | some v => cases v <;> simp [Json.asString?]

theorem stringField_eq_none_iff {name : String} :
    stringField name entry = none ↔ ∀ r, entry.field? name ≠ some (.string r) := by
  rw [Option.eq_none_iff_forall_ne_some]
  exact forall_congr' fun r => stringField_eq_some_iff.not

theorem flag_eq_false_iff {name : String} :
    flag name entry = false ↔ ∀ v, entry.field? name = some v → v.isTruthy = false := by
  rw [flag]
  cases entry.field? name <;> simp

theorem kindType_component_iff (tag : entry.field? "type" = some (.string "component")) :
    kindType (kindOf entry) = .error e ↔ Unnamed entry e := by
  rw [kindOf_component tag, kindType, componentType_eq_error_iff, stringField_eq_none_iff]
  simp only [stringField_eq_some_iff]
  constructor
  · rintro (⟨hmissing, rfl⟩ | ⟨r, hr, hunnamed, rfl⟩)
    · exact .missingReference tag hmissing
    · exact .reference tag hr hunnamed
  · intro h
    cases h with
    | missingReference _ hmissing => exact .inl ⟨hmissing, rfl⟩
    | reference _ hr hunnamed => exact .inr ⟨_, hr, hunnamed, rfl⟩
    | missingSegment tag' _ => simp [tag] at tag'
    | segment tag' _ _ => simp [tag] at tag'

theorem kindType_relation_iff (tag : entry.field? "type" = some (.string "relation")) :
    kindType (kindOf entry) = .error e ↔ Unnamed entry e := by
  rw [kindOf_relation tag, kindType, relationType_eq_error_iff, ← targetOf]
  constructor
  · rintro (⟨hmissing, rfl⟩ | ⟨s, hs, hunnamed, rfl⟩)
    · exact .missingSegment tag hmissing
    · exact .segment tag hs hunnamed
  · intro h
    cases h with
    | missingReference tag' _ => simp [tag] at tag'
    | reference tag' _ _ => simp [tag] at tag'
    | missingSegment _ hmissing => exact .inl ⟨hmissing, rfl⟩
    | segment _ hs hunnamed => exact .inr ⟨_, hs, hunnamed, rfl⟩

theorem Unnamed.tag (h : Unnamed entry e) :
    entry.field? "type" = some (.string "component") ∨
      entry.field? "type" = some (.string "relation") := by
  cases h with
  | missingReference tag _ => exact .inl tag
  | reference tag _ _ => exact .inl tag
  | missingSegment tag _ => exact .inr tag
  | segment tag _ _ => exact .inr tag

theorem kindType_kindOf_eq_error_iff : kindType (kindOf entry) = .error e ↔ Unnamed entry e := by
  constructor
  · intro h
    rcases tag_of_kindType_error h with tag | tag
    · exact (kindType_component_iff tag).mp h
    · exact (kindType_relation_iff tag).mp h
  · intro h
    rcases h.tag with tag | tag
    · exact (kindType_component_iff tag).mpr h
    · exact (kindType_relation_iff tag).mpr h

theorem typeExpression_ofJson_eq_error_iff :
    (ofJson entry).typeExpression = .error e ↔ LacksType entry e := by
  rw [LacksType, ← flag_eq_false_iff, typeExpression, ofJson]
  cases hflag : flag "customField" entry with
  | true => simp
  | false => simp [kindType_kindOf_eq_error_iff]

/-- An entry has a type unless something keeps it from having one. -/
theorem exists_typeExpression_iff :
    (∃ type, (ofJson entry).typeExpression = .ok type) ↔ ∀ e, ¬ LacksType entry e := by
  simp only [← typeExpression_ofJson_eq_error_iff]
  cases (ofJson entry).typeExpression <;> simp

end Attribute

/-! ### One unit -/

namespace Walk

variable {fs : FileSystem} {u : EntityUnit} {s : EntitySchema}

theorem entities_singleton_of_ok {d : Declaration} (h : collectEntity fs u = .ok d) :
    entities fs [u] = ⟨[d], []⟩ := by
  rw [entities, List.map_singleton, h]
  rfl

theorem entities_singleton_of_error {e : Diagnostic} (h : collectEntity fs u = .error e) :
    entities fs [u] = ⟨[], [e]⟩ := by
  rw [entities, List.map_singleton, h]
  rfl

/-- A schema that was loaded can still fail by its name. -/
theorem collectEntity_of_unnamed (h : EntitySchema.load fs u.schemaPath = .ok s)
    (hs : ∀ c ∈ s.singularName.toList, ¬ c.isAlphanum) :
    collectEntity fs u = .error ⟨.entity, u.name, .naming (.noSegments s.singularName)⟩ := by
  have hname : Declaration.entityName s.singularName = .error (.noSegments s.singularName) :=
    Declaration.entityName_eq_error_iff.mpr ⟨hs, rfl⟩
  simp only [collectEntity, h, collect, hname]

theorem exists_entityName_of_named (hs : ∃ c ∈ s.singularName.toList, c.isAlphanum) :
    ∃ n, Declaration.entityName s.singularName = .ok n := by
  cases hname : Declaration.entityName s.singularName with
  | ok n => exact ⟨n, rfl⟩
  | error e =>
    obtain ⟨hnone, -⟩ := Declaration.entityName_eq_error_iff.mp hname
    obtain ⟨c, hc, halphanum⟩ := hs
    exact absurd halphanum (hnone c hc)

/-- And after its name by the first of its attributes without a type. -/
theorem collectEntity_cases (h : EntitySchema.load fs u.schemaPath = .ok s)
    (hs : ∃ c ∈ s.singularName.toList, c.isAlphanum) :
    ((∀ a ∈ s.attributes, ∀ e, ¬ Attribute.LacksType a.2 e) ∧
        ∃ d, collectEntity fs u = .ok d) ∨
      ∃ before key entry after e, s.attributes = before ++ (key, entry) :: after ∧
        (∀ a ∈ before, ∀ e, ¬ Attribute.LacksType a.2 e) ∧ Attribute.LacksType entry e ∧
        collectEntity fs u = .error ⟨.entity, u.name, .collect ⟨key, e⟩⟩ := by
  obtain ⟨n, hname⟩ := exists_entityName_of_named hs
  cases hcollect : Declaration.collect n .entity s.attributes with
  | ok d =>
    left
    refine ⟨?_, d, by simp only [collectEntity, h, collect, hname, hcollect]⟩
    intro a ha
    exact Attribute.exists_typeExpression_iff.mp
      (Declaration.exists_collectInto_iff.mp ⟨d, hcollect⟩ a ha)
  | error e =>
    right
    obtain ⟨before, entry, after, hsplit, hbefore, herror⟩ :=
      Declaration.exists_of_collectInto_error hcollect
    refine ⟨before, e.key, entry, after, e.cause, hsplit, ?_,
      Attribute.typeExpression_ofJson_eq_error_iff.mp herror,
      by simp only [collectEntity, h, collect, hname, hcollect]⟩
    intro a ha
    exact Attribute.exists_typeExpression_iff.mp (hbefore a ha)

/-- A schema that loads is declared exactly if its singular name holds a letter or digit and none of
its attributes lacks a type. Otherwise it gives one diagnostic and nothing else: for the name where
that is the fault, and for the first attribute without a type where it is not, with what that
attribute lacks. -/
theorem entity_skipped_exactly (h : EntitySchema.load fs u.schemaPath = .ok s) :
    ((∃ d, entities fs [u] = ⟨[d], []⟩) ↔
        (∃ c ∈ s.singularName.toList, c.isAlphanum) ∧
          ∀ a ∈ s.attributes, ∀ e, ¬ Attribute.LacksType a.2 e) ∧
      ((∀ c ∈ s.singularName.toList, ¬ c.isAlphanum) →
        entities fs [u]
          = ⟨[], [⟨.entity, u.name, .naming (.noSegments s.singularName)⟩]⟩) ∧
      ((∃ c ∈ s.singularName.toList, c.isAlphanum) →
        (∃ a ∈ s.attributes, ∃ e, Attribute.LacksType a.2 e) →
          ∃ before key entry after e, s.attributes = before ++ (key, entry) :: after ∧
            (∀ a ∈ before, ∀ e, ¬ Attribute.LacksType a.2 e) ∧ Attribute.LacksType entry e ∧
            entities fs [u] = ⟨[], [⟨.entity, u.name, .collect ⟨key, e⟩⟩]⟩) := by
  refine ⟨⟨?sound, ?complete⟩, ?unnamed, ?untyped⟩
  case sound =>
    rintro ⟨d, hd⟩
    by_cases hs : ∃ c ∈ s.singularName.toList, c.isAlphanum
    · refine ⟨hs, ?_⟩
      rcases collectEntity_cases h hs with ⟨htyped, -⟩ | ⟨_, _, _, _, _, -, -, -, herror⟩
      · exact htyped
      · rw [entities_singleton_of_error herror] at hd
        cases hd
    · rw [entities_singleton_of_error (collectEntity_of_unnamed h (by simpa using hs))] at hd
      cases hd
  case complete =>
    rintro ⟨hs, htyped⟩
    rcases collectEntity_cases h hs with ⟨-, d, hd⟩ | ⟨_, _, _, _, _, hsplit, -, hlacks, -⟩
    · exact ⟨d, entities_singleton_of_ok hd⟩
    · exact absurd hlacks (htyped _ (hsplit ▸ List.mem_append_right _ List.mem_cons_self) _)
  case unnamed =>
    intro hs
    exact entities_singleton_of_error (collectEntity_of_unnamed h hs)
  case untyped =>
    rintro hs ⟨a, ha, e, hlacks⟩
    rcases collectEntity_cases h hs with ⟨htyped, -⟩ | ⟨before, key, entry, after, e', hrest⟩
    · exact absurd hlacks (htyped a ha e)
    · obtain ⟨hsplit, hbefore, hlacks', herror⟩ := hrest
      exact ⟨before, key, entry, after, e', hsplit, hbefore, hlacks',
        entities_singleton_of_error herror⟩

end Walk

/-! ### A target with one segment -/

/-- The text of a schema with two relations that have no second segment to name; the first is
provided by a plugin. -/
def schemaOfAuthor : String :=
  "\x7b\"info\":\x7b\"singularName\":\"page\"\x7d,\"attributes\":\x7b\"place\":"
    ++ "\x7b\"type\":\"relation\",\"customField\":\"plugin::map.point\"\x7d,"
    ++ "\"author\":\x7b\"type\":\"relation\",\"target\":\"admin\"\x7d\x7d\x7d"

def placeEntry : Json :=
  .object [("type", .string "relation"), ("customField", .string "plugin::map.point")]

def authorEntry : Json :=
  .object [("type", .string "relation"), ("target", .string "admin")]

set_option maxRecDepth 4000 in
theorem ofText_schemaOfAuthor :
    EntitySchema.ofText schemaOfAuthor
      = .ok ⟨"page", [("place", placeEntry), ("author", authorEntry)]⟩ := by
  with_unfolding_all rfl

theorem lacksType_authorEntry_iff {e : Attribute.TypeError} :
    Attribute.LacksType authorEntry e ↔ e = .missingTargetSegment "admin" := by
  have htype : (Attribute.ofJson authorEntry).typeExpression
      = .error (.missingTargetSegment "admin") := by cbv
  rw [← Attribute.typeExpression_ofJson_eq_error_iff, htype, Except.error.injEq, eq_comm]

theorem not_lacksType_placeEntry (e : Attribute.TypeError) :
    ¬ Attribute.LacksType placeEntry e := by
  have htype : (Attribute.ofJson placeEntry).typeExpression = .ok "string" := by cbv
  exact Attribute.exists_typeExpression_iff.mp ⟨_, htype⟩ e

theorem entity_skipped_author :
    EntitySchema.load (.loneEntity schemaOfAuthor)
        (EntityUnit.new (.ofString "/api") "page").schemaPath
        = .ok ⟨"page", [("place", placeEntry), ("author", authorEntry)]⟩ ∧
      Walk.entities (.loneEntity schemaOfAuthor) [.new (.ofString "/api") "page"]
        = ⟨[], [⟨.entity, "page", .collect ⟨"author", .missingTargetSegment "admin"⟩⟩]⟩ := by
  have hload := load_loneEntity ofText_schemaOfAuthor
  obtain ⟨-, -, huntyped⟩ := Walk.entity_skipped_exactly hload
  have hauthor : ("author", authorEntry) ∈ [("place", placeEntry), ("author", authorEntry)] :=
    List.mem_cons_of_mem _ List.mem_cons_self
  obtain ⟨before, key, entry, after, e, hsplit, hbefore, hlacks, hwalk⟩ :=
    huntyped ⟨'p', by simp, by decide⟩
      ⟨_, hauthor, _, lacksType_authorEntry_iff.mpr rfl⟩
  refine ⟨hload, ?_⟩
  rw [hwalk]
  cases before with
  | nil =>
    obtain ⟨heq, -⟩ := List.cons.inj hsplit
    cases heq
    exact absurd hlacks (not_lacksType_placeEntry e)
  | cons b before =>
    obtain ⟨-, hrest⟩ := List.cons.inj hsplit
    rcases List.append_eq_singleton_iff.mp hrest.symm with ⟨-, hpair⟩ | ⟨-, hnil⟩
    · cases hpair
      rw [lacksType_authorEntry_iff.mp hlacks]
      rfl
    · cases hnil

end ContentTypes
