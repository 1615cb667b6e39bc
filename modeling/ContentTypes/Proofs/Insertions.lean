import ContentTypes.Declaration
import Mathlib
/-!
What insertions come to. In a table that is filled by insertions every key stands where it was
first inserted, with the value that was inserted last. A declaration is such a table over its
field `id`, whether it is built by hand or collected from attributes.
-/

namespace ContentTypes

namespace Table

variable {κ α : Type} [DecidableEq κ]

theorem eraseDups_concat (l : List κ) (k : κ) :
    (l ++ [k]).eraseDups = if k ∈ l then l.eraseDups else l.eraseDups ++ [k] := by
  rw [List.eraseDups_append]
  split_ifs with hk
  · simp [List.removeAll, hk]
  · simp [List.removeAll, hk, List.eraseDups_cons]

theorem nodup_eraseDups (l : List κ) : l.eraseDups.Nodup := by
  induction l using List.reverseRecOn with
  | nil => exact List.nodup_nil
  | append_singleton l k ih =>
    rw [eraseDups_concat]
    split_ifs with hk
    · exact ih
    · rw [← List.concat_eq_append, List.nodup_concat, List.mem_eraseDups]
      exact ⟨hk, ih⟩

/-- A table is what insertions come to if every key stands where it came first, with the value that
came last. -/
structure Settles (insertions t : List (κ × α)) : Prop where
  keys_eq : keys t = (keys insertions).eraseDups
  get?_eq : ∀ k, get? k t = ((insertions.filter (·.1 = k)).getLast?).map Prod.snd

theorem settles_singleton (e : κ × α) : Settles [e] [e] where
  keys_eq := rfl
  get?_eq := by
    intro k
    by_cases hk : e.1 = k <;> simp [get?, hk]

variable {insertions t : List (κ × α)}

theorem Settles.put (h : Settles insertions t) (k : κ) (v : α) :
    Settles (insertions ++ [(k, v)]) (put k v t) where
  keys_eq := by
    have hkeys : keys (insertions ++ [(k, v)]) = keys insertions ++ [k] := by simp [keys]
    have hmem : k ∈ keys t ↔ k ∈ keys insertions := by rw [h.keys_eq, List.mem_eraseDups]
    rw [hkeys, eraseDups_concat, keys_put, ← h.keys_eq]
    simp only [hmem]
  get?_eq := by
    intro j
    rw [List.filter_append]
    by_cases hj : k = j
    · subst hj
      simp [get?_put_self]
    · simp [get?_put_of_ne (Ne.symm hj), h.get?_eq, hj]

theorem Settles.nodup_keys (h : Settles insertions t) : (keys t).Nodup := by
  rw [h.keys_eq]
  exact nodup_eraseDups _

theorem Settles.head?_keys {e : κ × α} (h : Settles (e :: insertions) t) :
    (keys t).head? = some e.1 := by
  rw [h.keys_eq, keys, List.map_cons, List.eraseDups_cons, List.head?_cons]

/-- A key that is inserted once only keeps the value of that time. -/
theorem Settles.get?_head {e : κ × α} (h : Settles (e :: insertions) t)
    (hk : e.1 ∉ keys insertions) : get? e.1 t = some e.2 := by
  have hnone : insertions.filter (·.1 = e.1) = [] := by
    rw [List.filter_eq_nil_iff]
    intro x hx hxe
    exact hk (List.mem_map.mpr ⟨x, hx, by simpa using hxe⟩)
  rw [h.get?_eq]
  simp [hnone]

end Table

namespace Declaration

variable {insertions : List (String × String)}

/-! ### Fields of a declaration -/

def insertAll (d : Declaration) (fields : List (String × String)) : Declaration :=
  fields.foldl (fun d f => d.insert f.1 f.2) d

theorem settles_insertAll (fields : List (String × String)) {d : Declaration}
    (h : Table.Settles insertions d.fields) :
    Table.Settles (insertions ++ fields) (d.insertAll fields).fields := by
  induction fields generalizing insertions d with
  | nil => simpa [insertAll] using h
  | cons f fields ih =>
    have hput : Table.Settles (insertions ++ [f]) (d.insert f.1 f.2).fields := h.put f.1 f.2
    simpa [insertAll] using ih hput

/-- A new declaration has the field `id` before all that is inserted into it. -/
theorem settles_new (name : String) (origin : Origin) (fields : List (String × String)) :
    Table.Settles (("id", "number") :: fields) ((new name origin).insertAll fields).fields := by
  have hnew : Table.Settles [("id", "number")] (new name origin).fields :=
    Table.settles_singleton _
  exact settles_insertAll fields hnew

/-! ### Collected attributes -/

/-- The field that an attribute comes to. -/
def fieldOf (a : String × Json) : Except CollectError (String × String) :=
  match (Attribute.ofJson a.2).typeExpression with
  | .ok type => .ok (a.1, type)
  | .error e => .error ⟨a.1, e⟩

/-- Collecting is inserting the fields of all attributes, if they all have one. -/
theorem collectInto_eq (attributes : List (String × Json)) (d : Declaration) :
    collectInto d attributes = (attributes.mapM fieldOf).map d.insertAll := by
  induction attributes generalizing d with
  | nil => rfl
  | cons a rest ih =>
    obtain ⟨key, entry⟩ := a
    rw [collectInto, List.mapM_cons, fieldOf]
    cases (Attribute.ofJson entry).typeExpression with
    | error e => rfl
    | ok type =>
      dsimp only
      rw [ih]
      cases rest.mapM fieldOf <;> rfl

/-- Collecting succeeds exactly if every attribute has a type. -/
theorem exists_collectInto_iff {attributes : List (String × Json)} {d : Declaration} :
    (∃ d', collectInto d attributes = .ok d') ↔
      ∀ a ∈ attributes, ∃ type, (Attribute.ofJson a.2).typeExpression = .ok type := by
  induction attributes generalizing d with
  | nil => simp [collectInto]
  | cons a rest ih =>
    obtain ⟨key, entry⟩ := a
    rw [collectInto, List.forall_mem_cons]
    cases ht : (Attribute.ofJson entry).typeExpression with
    | error e => simp
    | ok type => simp [ih]

/-- An error tells the first attribute without a type. -/
theorem exists_of_collectInto_error {attributes : List (String × Json)} {d : Declaration}
    {e : CollectError} (h : collectInto d attributes = .error e) :
    ∃ before entry after, attributes = before ++ (e.key, entry) :: after ∧
      (∀ a ∈ before, ∃ type, (Attribute.ofJson a.2).typeExpression = .ok type) ∧
      (Attribute.ofJson entry).typeExpression = .error e.cause := by
  induction attributes generalizing d with
  | nil => cases h
  | cons a rest ih =>
    obtain ⟨key, entry⟩ := a
    rw [collectInto] at h
    cases ht : (Attribute.ofJson entry).typeExpression with
    | error cause =>
      rw [ht] at h
      cases h
      exact ⟨[], entry, rest, rfl, by simp, ht⟩
    | ok type =>
      rw [ht] at h
      obtain ⟨before, entry', after, rfl, hbefore, herror⟩ := ih h
      refine ⟨(key, entry) :: before, entry', after, rfl, ?_, herror⟩
      rw [List.forall_mem_cons]
      exact ⟨⟨type, ht⟩, hbefore⟩

end Declaration
end ContentTypes
