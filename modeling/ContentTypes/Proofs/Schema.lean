import ContentTypes.Proofs.Json.Gathering
import ContentTypes.Schema
import Mathlib
/-!
What a schema that was loaded holds: attributes of which no two have one name, whatever the text
repeats.
-/

namespace ContentTypes

namespace Schema
open Json

theorem exists_refuse {α : Type} (expected : String) (c : Char) (s : List Char) :
    ∃ e, refuse (α := α) expected c s = .error e := by
  rw [refuse]
  split_ifs
  · exact ⟨_, rfl⟩
  · exact ⟨_, rfl⟩
  · cases readScalar c s with
    | error e => exact ⟨e, rfl⟩
    | ok v => exact ⟨_, rfl⟩

theorem refuse_ne_ok {α : Type} {expected : String} {c : Char} {s : List Char} {v : α} :
    refuse expected c s ≠ .ok v := by
  obtain ⟨e, he⟩ := exists_refuse (α := α) expected c s
  rw [he]
  simp

theorem readOnce_eq_ok {α : Type} {name : String} {old : Option α} {value : Reader α}
    {s : List Char} {v : α × Before s.length} (h : readOnce name old value s = .ok v) :
    afterColon value s = .ok v := by
  rw [readOnce] at h
  split_ifs at h
  exact h

/-- No name comes twice among attributes. -/
theorem nodup_readAttributes {s : List Char} {attributes : Attributes} {r : Before s.length}
    (h : readAttributes s = .ok (attributes, r)) : (Table.keys attributes).Nodup := by
  rw [readAttributes] at h
  split at h
  · cases h
  · split_ifs at h
    · obtain ⟨_, -, heq⟩ := exists_of_map_ok h
      cases heq
      exact List.nodup_nil
    · obtain ⟨⟨fs, r'⟩, hread, heq⟩ := exists_of_map_ok h
      cases heq
      exact (keeps_keepField _).readFields hread List.nodup_nil
    · exact absurd h refuse_ne_ok

theorem nodup_readLastAttributes {s : List Char} {attributes : Attributes} {r : Before s.length}
    (h : readLastAttributes s = .ok (attributes, r)) : (Table.keys attributes).Nodup := by
  rw [readLastAttributes] at h
  split at h
  · cases h
  · split_ifs at h
    · cases h
      exact List.nodup_nil
    · obtain ⟨⟨fs, r'⟩, hread, h⟩ := exists_of_bind_ok h
      obtain ⟨_, -, h⟩ := exists_of_bind_ok h
      cases h
      exact nodup_readAttributes hread

theorem nodup_of_afterColon {s : List Char} {attributes : Attributes} {r : Before s.length}
    (h : afterColon readAttributes s = .ok (attributes, r)) : (Table.keys attributes).Nodup := by
  obtain ⟨_, -, h⟩ := exists_of_bind_ok h
  obtain ⟨⟨fs, r'⟩, hread, h⟩ := exists_of_bind_ok h
  cases h
  exact nodup_readAttributes hread

theorem keeps_entityField :
    Keeps entityField fun fs => ∀ attributes ∈ fs.attributes, (Table.keys attributes).Nodup := by
  intro name fs s fs' r h hfs
  rw [entityField] at h
  split_ifs at h
  · obtain ⟨_, -, heq⟩ := exists_of_map_ok h
    cases heq
    exact hfs
  · obtain ⟨⟨attributes, r'⟩, hread, heq⟩ := exists_of_map_ok h
    cases heq
    rintro _ ⟨⟩
    exact nodup_of_afterColon (readOnce_eq_ok hread)
  · obtain ⟨_, -, heq⟩ := exists_of_map_ok h
    cases heq
    exact hfs

theorem nodup_readEntity {s : List Char} {schema : EntitySchema} {r : Before s.length}
    (h : readEntity s = .ok (schema, r)) : (Table.keys schema.attributes).Nodup := by
  rw [readEntity] at h
  split at h
  · cases h
  · split_ifs at h
    · split at h
      · cases h
      · obtain ⟨_, -, h⟩ := exists_of_bind_ok h
        obtain ⟨⟨fs, r'⟩, hread, h⟩ := exists_of_bind_ok h
        cases h
        exact nodup_readLastAttributes hread
    · obtain ⟨⟨fs, r'⟩, hread, h⟩ := exists_of_bind_ok h
      obtain ⟨name, -, h⟩ := exists_of_bind_ok h
      cases h
      have hfs := keeps_entityField.readFields hread (by simp)
      cases hattributes : fs.attributes with
      | none => exact List.nodup_nil
      | some attributes => exact hfs attributes hattributes
    · exact absurd h refuse_ne_ok

theorem keeps_componentField :
    Keeps componentField fun old => ∀ attributes ∈ old, (Table.keys attributes).Nodup := by
  intro name old s old' r h hold
  rw [componentField] at h
  split_ifs at h
  · obtain ⟨⟨attributes, r'⟩, hread, heq⟩ := exists_of_map_ok h
    cases heq
    rintro _ ⟨⟩
    exact nodup_of_afterColon (readOnce_eq_ok hread)
  · obtain ⟨_, -, heq⟩ := exists_of_map_ok h
    cases heq
    exact hold

theorem nodup_readComponent {s : List Char} {schema : ComponentSchema} {r : Before s.length}
    (h : readComponent s = .ok (schema, r)) : (Table.keys schema.attributes).Nodup := by
  rw [readComponent] at h
  split at h
  · cases h
  · split_ifs at h
    · split at h
      · cases h
        exact List.nodup_nil
      · obtain ⟨⟨fs, r'⟩, hread, h⟩ := exists_of_bind_ok h
        obtain ⟨_, -, h⟩ := exists_of_bind_ok h
        cases h
        exact nodup_readAttributes hread
    · obtain ⟨⟨fs, r'⟩, hread, heq⟩ := exists_of_bind_ok h
      cases heq
      have hfs := keeps_componentField.readFields hread (by simp)
      cases fs with
      | none => exact List.nodup_nil
      | some attributes => exact hfs attributes rfl
    · exact absurd h refuse_ne_ok

theorem load_of_readText {α : Type} {schema : Reader α} {fs : FileSystem} {path : Path}
    {text : String} (h : fs.readText path = .ok text) :
    load schema fs path = (readDocument schema text).mapError (.invalid path) := by
  rw [load, h]

theorem exists_read_of_load {α : Type} {schema : Reader α} {fs : FileSystem} {path : Path} {v : α}
    (h : load schema fs path = .ok v) : ∃ (text : String) (r : Before text.toList.length),
      fs.readText path = .ok text ∧ schema text.toList = .ok (v, r) := by
  rw [load] at h
  cases htext : fs.readText path with
  | error e => simp [htext] at h
  | ok text =>
    rw [htext] at h
    dsimp only at h
    cases hdoc : readDocument schema text with
    | error e =>
      rw [hdoc] at h
      cases h
    | ok v' =>
      rw [hdoc] at h
      cases h
      obtain ⟨⟨v', r⟩, hread, hrest⟩ := exists_of_bind_ok hdoc
      dsimp only at hrest
      split_ifs at hrest
      cases hrest
      exact ⟨text, r, rfl, hread⟩

end Schema

/-- In a schema that was loaded every attribute has a name of its own. -/
theorem EntitySchema.nodup_attributes {fs : FileSystem} {path : Path} {s : EntitySchema}
    (h : load fs path = .ok s) : (Table.keys s.attributes).Nodup := by
  obtain ⟨_, _, -, hread⟩ := Schema.exists_read_of_load h
  exact Schema.nodup_readEntity hread

theorem ComponentSchema.nodup_attributes {fs : FileSystem} {path : Path} {s : ComponentSchema}
    (h : load fs path = .ok s) : (Table.keys s.attributes).Nodup := by
  obtain ⟨_, _, -, hread⟩ := Schema.exists_read_of_load h
  exact Schema.nodup_readComponent hread

end ContentTypes
