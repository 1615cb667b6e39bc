import ContentTypes.Proofs.Json.Documents
import ContentTypes.Proofs.Schema
import Mathlib
/-!
Texts that are schemas. Whatever the readers of schemas take has an outline, so that every text that
is a schema is a document.
-/

namespace ContentTypes

namespace Schema
open Json

variable {s r : List Char}

theorem exists_spells_of_passScalar {c : Char} {a : Before s.length} {b : UpTo a.1.length}
    (hhead : head? s = some (c, a)) (hsquare : c ≠ '[') (hcurly : c ≠ '\x7b')
    (h : passScalar c a.1 = .ok b) : ∃ depth o, Spells depth s o b.1 := by
  obtain ⟨value, hscalar⟩ := exists_scalar hsquare hcurly h
  exact ⟨0, .scalar value, c, a.1, skipBlank_of_head? hhead, hscalar⟩

theorem finds_readString : Finds readString := by
  intro s v a h
  rw [readString] at h
  split at h
  · cases h
  · next c b hhead =>
    split_ifs at h with hquote
    · subst hquote
      obtain ⟨⟨t, b'⟩, htext, heq⟩ := exists_of_map_ok h
      cases heq
      have hpass : passScalar '"' b.1 = .ok b'.upTo := by
        rw [passScalar, passText_of_readText htext]
        rfl
      exact exists_spells_of_passScalar hhead (by decide) (by decide) hpass
    · exact absurd h refuse_ne_ok

theorem Finds.readOnce {α : Type} {value : Reader α} (hvalue : Finds value) {name : String}
    {old : Option α} {v : α} {a : Before s.length} (h : readOnce name old value s = .ok (v, a)) :
    ∃ depth t o, skipBlank s = ':' :: t ∧ Spells depth t o a.1 :=
  hvalue.afterColon (readOnce_eq_ok h)

theorem findsField_infoField : FindsField infoField := by
  intro name old s old' a h
  rw [infoField] at h
  split_ifs at h
  · obtain ⟨⟨v, b⟩, hread, heq⟩ := exists_of_map_ok h
    cases heq
    exact Finds.readOnce finds_readString hread
  · obtain ⟨⟨v, b⟩, hread, heq⟩ := exists_of_map_ok h
    cases heq
    exact finds_passValue.afterColon hread

/-- The first item of an array, where the bracket does not close at once. -/
theorem exists_items {α : Type} {item : Reader α} (hitem : Finds item)
    (hopen : ∀ a, head? s ≠ some (']', a)) {v : α} {a : Before s.length}
    (h : item s = .ok (v, a)) {n : Nat} {xs : List Outline}
    (hrest : Series (Spells n) ']' a.1 xs r) :
    ∃ depth o, Bracketed (Spells depth) ']' s (o :: xs) r := by
  obtain ⟨depth, o, ho⟩ := hitem _ _ _ h
  obtain ⟨c, t, hc⟩ := ho.exists_head
  have hne : c ≠ ']' := by
    rintro rfl
    obtain ⟨ht, hclose⟩ := head?_eq_some hc
    exact hopen _ hclose
  exact ⟨max depth n, o, .items hc hne (ho.mono (by omega)) (hrest.deepen (by omega))⟩

theorem finds_readInfo : Finds readInfo := by
  intro s v a h
  rw [readInfo] at h
  split at h
  · cases h
  · next c b hhead =>
    have hblank := skipBlank_of_head? hhead
    split_ifs at h with hsquare hcurly
    · subst hsquare
      split at h
      · cases h
      · next hopen =>
        obtain ⟨⟨name, b'⟩, hread, h⟩ := exists_of_bind_ok h
        obtain ⟨⟨_, b''⟩, hclose, h⟩ := exists_of_bind_ok h
        cases h
        obtain ⟨depth, o, ho⟩ := exists_items finds_readString hopen hread
          (.stop (colon_of_readChar hclose) : Series (Spells 0) ']' b'.1 [] b''.1)
        exact ⟨depth + 1, .array [o], b.1, hblank, ho⟩
    · subst hcurly
      obtain ⟨⟨old, b'⟩, hread, h⟩ := exists_of_bind_ok h
      obtain ⟨name, -, h⟩ := exists_of_bind_ok h
      cases h
      obtain ⟨depth, fs, hfs⟩ := findsField_infoField.readFields hread
      exact ⟨depth + 1, .object fs, b.1, hblank, hfs⟩
    · exact absurd h refuse_ne_ok

theorem finds_readAttributes : Finds readAttributes := by
  intro s v a h
  rw [readAttributes] at h
  split at h
  · cases h
  · next c b hhead =>
    split_ifs at h with hnull hcurly
    · subst hnull
      obtain ⟨b', hword, heq⟩ := exists_of_map_ok h
      cases heq
      exact exists_spells_of_passScalar hhead (by decide) (by decide) hword
    · subst hcurly
      obtain ⟨⟨table, b'⟩, hread, heq⟩ := exists_of_map_ok h
      cases heq
      obtain ⟨depth, fs, hfs⟩ := (findsField_keepField (finds_readValue _)).readFields hread
      exact ⟨depth + 1, .object fs, b.1, skipBlank_of_head? hhead, hfs⟩
    · exact absurd h refuse_ne_ok

theorem findsField_entityField : FindsField entityField := by
  intro name fs s fs' a h
  rw [entityField] at h
  split_ifs at h
  · obtain ⟨⟨v, b⟩, hread, heq⟩ := exists_of_map_ok h
    cases heq
    exact Finds.readOnce finds_readInfo hread
  · obtain ⟨⟨v, b⟩, hread, heq⟩ := exists_of_map_ok h
    cases heq
    exact Finds.readOnce finds_readAttributes hread
  · obtain ⟨⟨v, b⟩, hread, heq⟩ := exists_of_map_ok h
    cases heq
    exact finds_passValue.afterColon hread

theorem exists_series_of_readLastAttributes {attributes : Attributes} {a : Before s.length}
    (h : readLastAttributes s = .ok (attributes, a)) :
    ∃ depth xs, Series (Spells depth) ']' s xs a.1 := by
  rw [readLastAttributes] at h
  split at h
  · cases h
  · next c b hhead =>
    have hblank := skipBlank_of_head? hhead
    split_ifs at h with hclose hcomma
    · cases h
      subst hclose
      exact ⟨0, [], .stop hblank⟩
    · subst hcomma
      obtain ⟨⟨fs, b'⟩, hread, h⟩ := exists_of_bind_ok h
      obtain ⟨⟨_, b''⟩, hclose, h⟩ := exists_of_bind_ok h
      cases h
      obtain ⟨depth, o, ho⟩ := finds_readAttributes _ _ _ hread
      exact ⟨depth, [o], .more hblank ho (.stop (colon_of_readChar hclose))⟩

theorem finds_readEntity : Finds readEntity := by
  intro s v a h
  rw [readEntity] at h
  split at h
  · cases h
  · next c b hhead =>
    have hblank := skipBlank_of_head? hhead
    split_ifs at h with hsquare hcurly
    · subst hsquare
      split at h
      · cases h
      · next hopen =>
        obtain ⟨⟨name, b'⟩, hread, h⟩ := exists_of_bind_ok h
        obtain ⟨⟨fs, b''⟩, hlast, h⟩ := exists_of_bind_ok h
        cases h
        obtain ⟨n, xs, hxs⟩ := exists_series_of_readLastAttributes hlast
        obtain ⟨depth, o, ho⟩ := exists_items finds_readInfo hopen hread hxs
        exact ⟨depth + 1, .array (o :: xs), b.1, hblank, ho⟩
    · subst hcurly
      obtain ⟨⟨fs, b'⟩, hread, h⟩ := exists_of_bind_ok h
      obtain ⟨name, -, h⟩ := exists_of_bind_ok h
      cases h
      obtain ⟨depth, fs, hfs⟩ := findsField_entityField.readFields hread
      exact ⟨depth + 1, .object fs, b.1, hblank, hfs⟩
    · exact absurd h refuse_ne_ok

theorem findsField_componentField : FindsField componentField := by
  intro name old s old' a h
  rw [componentField] at h
  split_ifs at h
  · obtain ⟨⟨v, b⟩, hread, heq⟩ := exists_of_map_ok h
    cases heq
    exact Finds.readOnce finds_readAttributes hread
  · obtain ⟨⟨v, b⟩, hread, heq⟩ := exists_of_map_ok h
    cases heq
    exact finds_passValue.afterColon hread

theorem finds_readComponent : Finds readComponent := by
  intro s v a h
  rw [readComponent] at h
  split at h
  · cases h
  · next c b hhead =>
    have hblank := skipBlank_of_head? hhead
    split_ifs at h with hsquare hcurly
    · subst hsquare
      split at h
      · next b' hclose =>
        cases h
        exact ⟨1, .array [], b.1, hblank, .empty (skipBlank_of_head? hclose)⟩
      · next hopen =>
        obtain ⟨⟨fs, b'⟩, hread, h⟩ := exists_of_bind_ok h
        obtain ⟨⟨_, b''⟩, hclose, h⟩ := exists_of_bind_ok h
        cases h
        obtain ⟨depth, o, ho⟩ := exists_items finds_readAttributes hopen hread
          (.stop (colon_of_readChar hclose) : Series (Spells 0) ']' b'.1 [] b''.1)
        exact ⟨depth + 1, .array [o], b.1, hblank, ho⟩
    · subst hcurly
      obtain ⟨⟨fs, b'⟩, hread, h⟩ := exists_of_bind_ok h
      cases h
      obtain ⟨depth, fs, hfs⟩ := findsField_componentField.readFields hread
      exact ⟨depth + 1, .object fs, b.1, hblank, hfs⟩
    · exact absurd h refuse_ne_ok

theorem exists_document_of_finds {α : Type} {value : Reader α} (hvalue : Finds value)
    {text : String} {v : α} (h : readDocument value text = .ok v) : ∃ o, Document text o := by
  obtain ⟨⟨v, a⟩, hread, h⟩ := exists_of_bind_ok h
  dsimp only at h
  split_ifs at h with hend
  obtain ⟨depth, o, ho⟩ := hvalue _ _ _ hread
  exact ⟨o, depth, a.1, ho, by simpa using hend⟩

end Schema

open Json in
/-- A text that is an entity schema is a document. -/
theorem EntitySchema.exists_document {text : String} {schema : EntitySchema}
    (h : ofText text = .ok schema) : ∃ o, Document text o :=
  Schema.exists_document_of_finds Schema.finds_readEntity h

end ContentTypes
