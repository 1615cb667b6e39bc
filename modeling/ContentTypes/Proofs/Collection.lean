import ContentTypes.Proofs.Insertions
import Mathlib
/-!
Collected attributes in their order. The field `id` stands first, with the type of the attribute of
this name wherever that one stands in the schema, and the fields of all other attributes follow in
the order of the schema. Where an attribute has no type, the first of these is reported.
-/

namespace ContentTypes

namespace Table

variable {κ α : Type} [DecidableEq κ]

theorem put_of_notMem {k : κ} {t : List (κ × α)} (h : k ∉ keys t) (v : α) :
    put k v t = t ++ [(k, v)] := by
  induction t with
  | nil => rfl
  | cons e t ih =>
    rw [keys, List.map_cons, List.mem_cons, not_or] at h
    rw [put, if_neg (Ne.symm h.1), ih h.2]
    rfl

theorem get?_eq_none_iff {k : κ} {t : List (κ × α)} : get? k t = none ↔ k ∉ keys t := by
  rw [mem_keys_iff, Option.eq_none_iff_forall_ne_some, not_exists]

/-- Distinct keys that are put into a table stand behind it, but for the key of its first entry,
which stays in front. -/
theorem foldl_put_cons {k : κ} {entries t : List (κ × α)} (hentries : (keys entries).Nodup)
    (hnew : ∀ j ∈ keys entries, j ∉ keys t) (v : α) :
    entries.foldl (fun t e => put e.1 e.2 t) ((k, v) :: t)
      = (k, (get? k entries).getD v) :: (t ++ entries.filter (·.1 ≠ k)) := by
  induction entries generalizing t v with
  | nil => simp [get?]
  | cons e entries ih =>
    obtain ⟨j, w⟩ := e
    rw [keys, List.map_cons, List.nodup_cons] at hentries
    obtain ⟨hj, hrest⟩ := hentries
    have hhead : j ∉ keys t := hnew j List.mem_cons_self
    have htail : ∀ i ∈ keys entries, i ∉ keys t := fun i hi => hnew i (List.mem_cons_of_mem _ hi)
    rw [List.foldl_cons, put]
    by_cases hk : k = j
    · subst hk
      rw [if_pos rfl, ih hrest htail, get?_eq_none_iff.mpr hj]
      simp [get?]
    · have hnew' : ∀ i ∈ keys entries, i ∉ keys (t ++ [(j, w)]) := by
        intro i hi
        have hne : i ≠ j := fun h => hj (h ▸ hi)
        simpa [keys, hne] using htail i hi
      rw [if_neg hk, put_of_notMem hhead, ih hrest hnew']
      simp [get?, Ne.symm hk]

end Table

namespace Declaration

variable {d d' : Declaration} {attributes : List (String × Json)}
  {fields : List (String × String)}

/-- An attribute comes to a field of its own key and type. -/
def Types (a : String × Json) (field : String × String) : Prop :=
  a.1 = field.1 ∧ (Attribute.ofJson a.2).typeExpression = .ok field.2

/-- The type of the field `id`, which an attribute of this name may give. -/
def idType (attributes : List (String × Json)) : Except Attribute.TypeError String :=
  match Table.get? "id" attributes with
  | some entry => (Attribute.ofJson entry).typeExpression
  | none => .ok "number"

theorem insertAll_cons (f : String × String) (fields : List (String × String))
    (d : Declaration) : d.insertAll (f :: fields) = (d.insert f.1 f.2).insertAll fields := rfl

theorem insertAll_eq (fields : List (String × String)) (d : Declaration) :
    d.insertAll fields
      = { d with fields := fields.foldl (fun t f => Table.put f.1 f.2 t) d.fields } := by
  induction fields generalizing d with
  | nil => rfl
  | cons f fields ih =>
    rw [insertAll_cons, ih]
    rfl

theorem insertAll_new (name : String) (origin : Origin) (h : (Table.keys fields).Nodup) :
    (new name origin).insertAll fields
      = ⟨name, origin, ("id", (Table.get? "id" fields).getD "number")
          :: fields.filter (·.1 ≠ "id")⟩ := by
  have hput := Table.foldl_put_cons (k := "id") (t := []) h (by simp [Table.keys]) "number"
  rw [insertAll_eq, new, hput, List.nil_append]

/-- Collecting succeeds with the fields of all attributes inserted in their order. -/
theorem collectInto_eq_ok_iff : collectInto d attributes = .ok d' ↔
    ∃ fields, List.Forall₂ Types attributes fields ∧ d.insertAll fields = d' := by
  induction attributes generalizing d with
  | nil => simp [collectInto, insertAll]
  | cons a rest ih =>
    obtain ⟨key, entry⟩ := a
    rw [collectInto]
    cases ht : (Attribute.ofJson entry).typeExpression with
    | error e =>
      simp only [reduceCtorEq, false_iff, not_exists, not_and]
      intro fields h
      cases h with
      | cons hhead _ => simp [Types, ht] at hhead
    | ok type =>
      dsimp only
      rw [ih]
      constructor
      · rintro ⟨fields, hrest, rfl⟩
        exact ⟨(key, type) :: fields, .cons ⟨rfl, ht⟩ hrest, rfl⟩
      · rintro ⟨fields, h, rfl⟩
        cases h with
        | @cons _ field _ fields hhead hrest =>
          obtain ⟨hkey, htype⟩ := hhead
          obtain rfl : type = field.2 := Except.ok.inj (ht.symm.trans htype)
          exact ⟨fields, hrest, by rw [insertAll_cons, ← hkey]⟩

theorem keys_eq_of_types (h : List.Forall₂ Types attributes fields) :
    Table.keys attributes = Table.keys fields := by
  induction h with
  | nil => rfl
  | cons hhead _ ih => exact congrArg₂ List.cons hhead.1 ih

theorem idType_of_types (h : List.Forall₂ Types attributes fields) :
    idType attributes = .ok ((Table.get? "id" fields).getD "number") := by
  induction h with
  | nil => rfl
  | @cons a field rest fields hhead _ ih =>
    obtain ⟨hkey, htype⟩ := hhead
    by_cases hid : a.1 = "id"
    · have hattribute : Table.get? "id" (a :: rest) = some a.2 := if_pos hid
      have hfield : Table.get? "id" (field :: fields) = some field.2 := if_pos (hkey ▸ hid)
      rw [idType, hattribute, hfield]
      exact htype
    · have hattribute : Table.get? "id" (a :: rest) = Table.get? "id" rest := if_neg hid
      have hfield : Table.get? "id" (field :: fields) = Table.get? "id" fields :=
        if_neg (hkey ▸ hid)
      rw [idType, hattribute, hfield, ← ih, idType]

theorem exists_type_of_types (h : List.Forall₂ Types attributes fields) :
    ∀ a ∈ attributes, ∃ type, (Attribute.ofJson a.2).typeExpression = .ok type := by
  induction h with
  | nil => simp
  | cons hhead _ ih => exact List.forall_mem_cons.mpr ⟨⟨_, hhead.2⟩, ih⟩

theorem types_filter (h : List.Forall₂ Types attributes fields) :
    List.Forall₂ Types (attributes.filter (·.1 ≠ "id")) (fields.filter (·.1 ≠ "id")) :=
  List.rel_filter (fun a f hf => by simp [hf.1]) h

/-- An attribute has one type. -/
theorem eq_of_types {fields' : List (String × String)} (h : List.Forall₂ Types attributes fields)
    (h' : List.Forall₂ Types attributes fields') : fields = fields' := by
  refine List.right_unique_forall₂' (fun a f f' hf hf' => ?_) h h'
  exact Prod.ext (hf.1.symm.trans hf'.1) (Except.ok.inj (hf.2.symm.trans hf'.2))

/-- What is collected of distinct attributes. -/
theorem fields_of_collect {name : String} {origin : Origin}
    (hnodup : (Table.keys attributes).Nodup) (h : collect name origin attributes = .ok d) :
    ∃ type fields, idType attributes = .ok type ∧
      List.Forall₂ Types (attributes.filter (·.1 ≠ "id")) fields ∧
      d = ⟨name, origin, ("id", type) :: fields⟩ := by
  obtain ⟨fields, htypes, rfl⟩ := collectInto_eq_ok_iff.mp h
  have hfields : (Table.keys fields).Nodup := keys_eq_of_types htypes ▸ hnodup
  exact ⟨_, _, idType_of_types htypes, types_filter htypes, insertAll_new name origin hfields⟩

theorem exists_type_of_idType {type : String} (hnodup : (Table.keys attributes).Nodup)
    (hid : idType attributes = .ok type)
    (htypes : List.Forall₂ Types (attributes.filter (·.1 ≠ "id")) fields) :
    ∀ a ∈ attributes, ∃ type, (Attribute.ofJson a.2).typeExpression = .ok type := by
  intro a ha
  by_cases hkey : a.1 = "id"
  · have hget : Table.get? "id" attributes = some a.2 := by
      rw [Table.get?_eq_some_iff hnodup, ← hkey]
      exact ha
    rw [idType, hget] at hid
    exact ⟨type, hid⟩
  · have hmem : a ∈ attributes.filter (·.1 ≠ "id") :=
      List.mem_filter.mpr ⟨ha, by simpa using hkey⟩
    exact exists_type_of_types htypes a hmem

/-- The first attribute without a type ends the collection. -/
theorem collectInto_of_error {key : String} {entry : Json} {e : Attribute.TypeError}
    {before : List (String × Json)} (after : List (String × Json))
    (hbefore : ∀ a ∈ before, ∃ type, (Attribute.ofJson a.2).typeExpression = .ok type)
    (herror : (Attribute.ofJson entry).typeExpression = .error e) :
    collectInto d (before ++ (key, entry) :: after) = .error ⟨key, e⟩ := by
  induction before generalizing d with
  | nil => rw [List.nil_append, collectInto, herror]
  | cons a before ih =>
    obtain ⟨⟨type, htype⟩, hrest⟩ := List.forall_mem_cons.mp hbefore
    rw [List.cons_append, collectInto, htype]
    exact ih hrest

/-- Attributes with distinct names are collected if and only if each of them has a type. The fields
are then `id`, with the type of the attribute of this name or as a number where there is none, and
after it the fields of all other attributes in their order. Otherwise the error names the first
attribute without a type and tells why it has none. -/
theorem collect_in_order (name : String) (origin : Origin)
    (hnodup : (Table.keys attributes).Nodup) :
    ((∃ d, collect name origin attributes = .ok d) ↔
        ∀ a ∈ attributes, ∃ type, (Attribute.ofJson a.2).typeExpression = .ok type) ∧
      (∀ d, collect name origin attributes = .ok d ↔
        ∃ type fields, idType attributes = .ok type ∧
          List.Forall₂ Types (attributes.filter (·.1 ≠ "id")) fields ∧
          d = ⟨name, origin, ("id", type) :: fields⟩) ∧
      ∀ e, collect name origin attributes = .error e ↔
        ∃ before entry after, attributes = before ++ (e.key, entry) :: after ∧
          (∀ a ∈ before, ∃ type, (Attribute.ofJson a.2).typeExpression = .ok type) ∧
          (Attribute.ofJson entry).typeExpression = .error e.cause := by
  refine ⟨exists_collectInto_iff, fun d => ⟨fields_of_collect hnodup, ?complete⟩,
    fun e => ⟨exists_of_collectInto_error, ?failed⟩⟩
  case complete =>
    rintro ⟨type, fields, hid, htypes, rfl⟩
    obtain ⟨d, hd⟩ := exists_collectInto_iff.mpr (exists_type_of_idType hnodup hid htypes)
    obtain ⟨type', fields', hid', htypes', rfl⟩ := fields_of_collect hnodup hd
    obtain rfl : type = type' := Except.ok.inj (hid.symm.trans hid')
    rw [eq_of_types htypes htypes']
    exact hd
  case failed =>
    rintro ⟨before, entry, after, rfl, hbefore, herror⟩
    exact collectInto_of_error after hbefore herror

/-! ### An `id` among other attributes -/

def linkAttributes : List (String × Json) :=
  [("title", .object [("type", .string "text")]), ("id", .object [("type", .string "uid")]),
    ("views", .object [("type", .string "integer")])]

/-- A relation without a target. -/
def authorAttribute : String × Json :=
  ("author", .object [("type", .string "relation")])

/-- The second attribute gives the type of the first field. With a relation to nothing behind it,
the schema is not collected. -/
theorem linkAttributes_collected :
    (Table.keys (linkAttributes ++ [authorAttribute])).Nodup ∧
      collect "APILink" .entity linkAttributes
        = .ok ⟨"APILink", .entity, [("id", "string"), ("title", "string"), ("views", "number")]⟩ ∧
      collect "APILink" .entity (linkAttributes ++ [authorAttribute])
        = .error ⟨"author", .missingTargetSegment ""⟩ := by
  have hnodup : (Table.keys linkAttributes).Nodup := by
    decide
  have hnodup' : (Table.keys (linkAttributes ++ [authorAttribute])).Nodup := by
    decide
  obtain ⟨-, hcollected, -⟩ := collect_in_order "APILink" .entity hnodup
  obtain ⟨-, -, hfailed⟩ := collect_in_order "APILink" .entity hnodup'
  refine ⟨hnodup', (hcollected _).mpr ?_, (hfailed _).mpr ?_⟩
  · exact ⟨"string", [("title", "string"), ("views", "number")], rfl,
      .cons ⟨rfl, rfl⟩ (.cons ⟨rfl, rfl⟩ .nil), rfl⟩
  · refine ⟨linkAttributes, authorAttribute.2, [], rfl, ?_, rfl⟩
    simp only [linkAttributes, List.forall_mem_cons]
    exact ⟨⟨"string", rfl⟩, ⟨"string", rfl⟩, ⟨"number", rfl⟩, by simp⟩

end Declaration
end ContentTypes
