import ContentTypes.Proofs.IrrelevantFields
import Mathlib
/-!
The two readers of schemas side by side. On a text in object form the reader of entity schemas is
the reader of component schemas and a reader of the singular name, one beside the other. So they
agree on the attributes, and attributes that are missing, null or empty are the same to both.
-/

namespace ContentTypes

open Json

namespace Schema
open Outline

/-! ### Fields that may come once -/

variable {α : Type} {name : String} {value? : Outline → Option α} {fs gs fields : List Field}

/-- What is said of a name, each time that it comes. -/
def values (name : String) (fs : List Field) : List Outline :=
  (fs.filter fun f => decide (f.1 = some name)).map Prod.snd

/-- All names can be read. -/
def AllNamed (fs : List Field) : Prop :=
  ∀ f ∈ fs, f.1.isSome

/-- The value of a field, which may be missing. -/
def atMostOne (value? : Outline → Option α) : List Outline → Option (Option α)
  | [] => some none
  | [o] => (value? o).map some
  | _ :: _ :: _ => none

/-- Reads one field only, and that only once. -/
def onceStep (name : String) (value? : Outline → Option α) (n : String) (old : Option α)
    (o : Outline) : Option (Option α) :=
  if n = name then (once old (value? o)).map some else some old

@[simp] theorem values_nil (name : String) : values name [] = [] := rfl

@[simp] theorem values_cons_self (name : String) (o : Outline) (fs : List Field) :
    values name ((some name, o) :: fs) = o :: values name fs := by
  simp [values]

theorem values_cons_of_ne {n : String} (h : n ≠ name) (o : Outline) (fs : List Field) :
    values name ((some n, o) :: fs) = values name fs := by
  simp [values, h]

@[simp] theorem values_append (name : String) (fs gs : List Field) :
    values name (fs ++ gs) = values name fs ++ values name gs := by
  rw [values, List.filter_append, List.map_append]
  rfl

theorem values_eq_nil_iff : values name fs = [] ↔ name ∉ names fs := by
  rw [values, names, List.map_eq_nil_iff, List.filter_eq_nil_iff, List.mem_filterMap, not_exists]
  simp only [decide_eq_true_eq, not_and]

theorem mem_values {o : Outline} (h : (some name, o) ∈ fs) : o ∈ values name fs :=
  List.mem_map.mpr ⟨_, List.mem_filter.mpr ⟨h, by simp⟩, rfl⟩

@[simp] theorem allNamed_nil : AllNamed [] :=
  List.forall_mem_nil _

@[simp] theorem allNamed_cons {f : Field} : AllNamed (f :: fs) ↔ f.1.isSome ∧ AllNamed fs :=
  List.forall_mem_cons

@[simp] theorem allNamed_append : AllNamed (fs ++ gs) ↔ AllNamed fs ∧ AllNamed gs :=
  List.forall_mem_append

theorem take_onceStep_of_ne {n : String} (h : n ≠ name) (old : Option α) (o : Outline) :
    take (onceStep name value?) old (some n, o) = some old := by
  rw [take, Option.bind_some, onceStep, if_neg h]

theorem take_onceStep_self (old : Option α) (o : Outline) :
    take (onceStep name value?) old (some name, o) = (once old (value? o)).map some := by
  rw [take, Option.bind_some, onceStep, if_pos rfl]

/-- Once the field has come, it does not come again. -/
theorem gather_onceStep_some_iff {v : α} {new : Option α} :
    gather (onceStep name value?) (some v) fs = some new
      ↔ AllNamed fs ∧ values name fs = [] ∧ new = some v := by
  induction fs with
  | nil => simp [eq_comm]
  | cons f fs ih =>
    obtain ⟨n, o⟩ := f
    rw [gather_cons]
    cases n with
    | none => simp [take]
    | some n =>
      by_cases hn : n = name
      · subst hn
        simp [take_onceStep_self, once]
      · simpa [take_onceStep_of_ne hn, values_cons_of_ne hn] using ih

/-- What the field comes to depends on nothing but its own values. -/
theorem gather_onceStep_iff {new : Option α} :
    gather (onceStep name value?) none fs = some new
      ↔ AllNamed fs ∧ atMostOne value? (values name fs) = some new := by
  induction fs with
  | nil => simp [atMostOne]
  | cons f fs ih =>
    obtain ⟨n, o⟩ := f
    rw [gather_cons]
    cases n with
    | none => simp [take]
    | some n =>
      by_cases hn : n = name
      · subst hn
        rw [take_onceStep_self, values_cons_self, allNamed_cons]
        cases ho : value? o with
        | none => cases values n fs <;> simp [once, atMostOne, ho]
        | some v =>
          simp only [once, Option.isSome_none, Bool.false_eq_true, if_false, Option.map_some,
            Option.bind_some, gather_onceStep_some_iff]
          cases values n fs <;> simp [atMostOne, ho, eq_comm]
      · simpa [take_onceStep_of_ne hn, values_cons_of_ne hn] using ih

/-! ### The two readers -/

theorem componentStep_eq : componentStep = onceStep "attributes" attributes? := rfl

/-- Whatever the reader of entity schemas makes of a field, it does to the singular name or to the
attributes alone. -/
theorem entityStep_eq (name : String) (info : Option String) (attributes : Option Attributes)
    (o : Outline) :
    entityStep name ⟨info, attributes⟩ o
      = Option.map₂ EntityFields.mk (onceStep "info" info? name info o)
          (componentStep name attributes o) := by
  rw [entityStep, onceStep, componentStep]
  by_cases hinfo : name = "info"
  · subst hinfo
    cases once info (info? o) <;> rfl
  · simp only [if_neg hinfo]
    split_ifs
    · cases once attributes (attributes? o) <;> rfl
    · rfl

theorem component?_eq_some_iff {s : ComponentSchema} :
    component? fields = some s ↔ AllNamed fields ∧
      ∃ attributes, atMostOne attributes? (values "attributes" fields) = some attributes ∧
        ⟨attributes.getD []⟩ = s := by
  rw [component?, componentStep_eq, Option.map_eq_some_iff]
  simp only [gather_onceStep_iff, and_assoc, exists_and_left]

/-- What is an entity schema is a component schema with a singular name. -/
theorem entity?_eq_some_iff {s : EntitySchema} :
    entity? fields = some s ↔
      atMostOne info? (values "info" fields) = some (some s.singularName) ∧
        component? fields = some ⟨s.attributes⟩ := by
  have hboth : entity? fields = some s ↔
      gather (onceStep "info" info?) none fields = some (some s.singularName) ∧
        component? fields = some ⟨s.attributes⟩ := by
    obtain ⟨singularName, attributes⟩ := s
    rw [entity?, component?, gather_map₂ entityStep_eq]
    cases gather (onceStep "info" info?) none fields with
    | none => simp
    | some info => cases gather componentStep none fields <;> cases info <;> simp
  rw [hboth, gather_onceStep_iff]
  constructor
  · rintro ⟨⟨-, hinfo⟩, hcomponent⟩
    exact ⟨hinfo, hcomponent⟩
  · rintro ⟨hinfo, hcomponent⟩
    exact ⟨⟨(component?_eq_some_iff.mp hcomponent).1, hinfo⟩, hcomponent⟩

/-! ### No attributes -/

/-- All ways to say that there are no attributes: no field, null, or nothing between the braces. -/
def noAttributes : List (List Field) :=
  [[], [(some "attributes", .scalar (some .null))], [(some "attributes", .object [])]]

/-- Objects with the same fields in the same order, but that each says in its own way that there
are no attributes. -/
inductive SameButEmpty : List Field → List Field → Prop
  | intro {x y : List Field} (front back : List Field) (hx : x ∈ noAttributes)
      (hy : y ∈ noAttributes) (habsent : x = [] → "attributes" ∉ names (front ++ back)) :
      SameButEmpty (front ++ x ++ back) (front ++ y ++ back)

theorem allNamed_of_noAttributes {x : List Field} (hx : x ∈ noAttributes) : AllNamed x := by
  fin_cases hx <;> simp

theorem values_info_of_noAttributes {x : List Field} (hx : x ∈ noAttributes) :
    values "info" x = [] := by
  fin_cases hx <;> rfl

theorem atMostOne_of_noAttributes {x : List Field} (hx : x ∈ noAttributes) :
    ∃ attributes, atMostOne attributes? (values "attributes" x) = some attributes ∧
      attributes.getD [] = [] := by
  fin_cases hx <;> exact ⟨_, rfl, rfl⟩

theorem values_ne_nil_of_noAttributes {x : List Field} (hx : x ∈ noAttributes) (hne : x ≠ []) :
    values "attributes" x ≠ [] := by
  fin_cases hx
  · exact absurd rfl hne
  · simp
  · simp

theorem SameButEmpty.values_info (h : SameButEmpty fs gs) : values "info" fs = values "info" gs := by
  obtain ⟨front, back, hx, hy, -⟩ := h
  simp only [values_append, values_info_of_noAttributes hx, values_info_of_noAttributes hy]

theorem length_le_of_atMostOne {os : List Outline} {v : Option α}
    (h : atMostOne value? os = some v) : os.length ≤ 1 := by
  match os with
  | [] => exact Nat.zero_le 1
  | [_] => exact Nat.le_refl 1
  | _ :: _ :: _ => cases h

/-- Where an object says once that there are no attributes, and is taken, no more is said. -/
theorem values_eq_nil_of_atMostOne {front x back : List Field} {attributes : Option Attributes}
    (hx : x ∈ noAttributes) (habsent : x = [] → "attributes" ∉ names (front ++ back))
    (h : atMostOne attributes? (values "attributes" (front ++ x ++ back)) = some attributes) :
    values "attributes" front = [] ∧ values "attributes" back = [] := by
  by_cases hnil : x = []
  · rw [← List.append_eq_nil_iff, ← values_append, values_eq_nil_iff]
    exact habsent hnil
  · -- the value from `x` leaves room for no other
    have hone := List.length_pos_iff.mpr (values_ne_nil_of_noAttributes hx hnil)
    have hle := length_le_of_atMostOne h
    simp only [values_append, List.length_append] at hle
    constructor
    · exact List.eq_nil_of_length_eq_zero (by omega)
    · exact List.eq_nil_of_length_eq_zero (by omega)

theorem SameButEmpty.component?_eq_some (h : SameButEmpty fs gs) {s : ComponentSchema}
    (hs : component? fs = some s) : s.attributes = [] ∧ component? gs = some s := by
  obtain ⟨front, back, hx, hy, habsent⟩ := h
  obtain ⟨hnamed, attributes, hattributes, rfl⟩ := component?_eq_some_iff.mp hs
  obtain ⟨hfront, hback⟩ := values_eq_nil_of_atMostOne hx habsent hattributes
  obtain ⟨_, hxs, hempty⟩ := atMostOne_of_noAttributes hx
  obtain ⟨attributes', hys, hempty'⟩ := atMostOne_of_noAttributes hy
  simp only [values_append, hfront, hback, List.nil_append, List.append_nil, hxs,
    Option.some_inj] at hattributes
  subst hattributes
  refine ⟨hempty, component?_eq_some_iff.mpr ⟨?named, attributes', ?values, ?same⟩⟩
  case named =>
    simp only [allNamed_append] at hnamed ⊢
    exact ⟨⟨hnamed.1.1, allNamed_of_noAttributes hy⟩, hnamed.2⟩
  case values =>
    simpa only [values_append, hfront, hback, List.nil_append, List.append_nil] using hys
  case same =>
    rw [hempty, hempty']

theorem SameButEmpty.entity?_eq_some (h : SameButEmpty fs gs) {s : EntitySchema}
    (hs : entity? fs = some s) : s.attributes = [] ∧ entity? gs = some s := by
  rw [entity?_eq_some_iff] at hs ⊢
  obtain ⟨hinfo, hcomponent⟩ := hs
  obtain ⟨hempty, hcomponent⟩ := h.component?_eq_some hcomponent
  rw [← h.values_info]
  exact ⟨hempty, hinfo, hcomponent⟩

/-! ### Attributes of another kind -/

theorem eq_singleton_of_atMostOne {os : List Outline} {o : Outline} {v : Option α}
    (h : atMostOne value? os = some v) (ho : o ∈ os) : os = [o] := by
  match os with
  | [_] => rw [List.mem_singleton.mp ho]
  | _ :: _ :: _ => cases h

theorem attributes?_eq_none {o : Outline} (hnull : o ≠ .scalar (some .null))
    (hobject : ∀ inner, o ≠ .object inner) : attributes? o = none := by
  match o with
  | .scalar (some .null) => exact absurd rfl hnull
  | .object inner => exact absurd rfl (hobject inner)
  | .scalar none | .scalar (some (.bool _)) | .scalar (some (.number _))
  | .scalar (some (.string _)) | .scalar (some (.array _)) | .scalar (some (.object _))
  | .array _ => rfl

/-- Attributes that are neither null nor an object are not taken, be they the only ones or not. -/
theorem component?_eq_none {o : Outline} (ho : (some "attributes", o) ∈ fields)
    (hnull : o ≠ .scalar (some .null)) (hobject : ∀ inner, o ≠ .object inner) :
    component? fields = none := by
  rw [Option.eq_none_iff_forall_ne_some]
  intro s hs
  obtain ⟨-, attributes, hattributes, -⟩ := component?_eq_some_iff.mp hs
  rw [eq_singleton_of_atMostOne hattributes (mem_values ho), atMostOne,
    attributes?_eq_none hnull hobject] at hattributes
  cases hattributes

/-- What is no component schema is no entity schema. -/
theorem entity?_eq_none (h : component? fields = none) : entity? fields = none := by
  rw [Option.eq_none_iff_forall_ne_some]
  intro s hs
  rw [(entity?_eq_some_iff.mp hs).2] at h
  cases h

/-! ### Files -/

section
variable {schema : Reader α} {disk : FileSystem} {path : Path} {text : String}

theorem load_eq_ok_iff {v : α} (hread : disk.readText path = .ok text) :
    load schema disk path = .ok v ↔ (readDocument schema text).toOption = some v := by
  rw [load_of_readText hread]
  cases readDocument schema text with
  | error fault => simp [Except.mapError, Except.toOption]
  | ok v' => simp [Except.mapError, Except.toOption]

theorem exists_load_error (hread : disk.readText path = .ok text)
    (h : (readDocument schema text).toOption = none) :
    ∃ fault, load schema disk path = .error (.invalid path fault) := by
  rw [load_of_readText hread]
  cases hdoc : readDocument schema text with
  | error fault => exact ⟨fault, rfl⟩
  | ok v =>
    rw [hdoc] at h
    cases h

/-- A text that opens with a brace and is a schema is a document in object form. -/
theorem exists_object_of_load (hschema : Finds schema) (hread : disk.readText path = .ok text)
    {v : α} (h : load schema disk path = .ok v) {rest : List Char}
    (hopen : skipBlank text.toList = '\x7b' :: rest) :
    ∃ fields, Document text (.object fields) := by
  rw [load_of_readText hread] at h
  cases hdoc : readDocument schema text with
  | error fault =>
    rw [hdoc] at h
    cases h
  | ok v' =>
    obtain ⟨o, hdocument⟩ := exists_document_of_finds hschema hdoc
    obtain ⟨fields, rfl⟩ := hdocument.exists_object hopen
    exact ⟨fields, hdocument⟩

end

end Schema

section
variable {disk : FileSystem} {path : Path} {text : String} {fields : List Outline.Field}

theorem EntitySchema.load_eq_ok_iff {s : EntitySchema} (hread : disk.readText path = .ok text)
    (hdoc : Document text (.object fields)) :
    load disk path = .ok s ↔ Schema.entity? fields = some s := by
  rw [load, Schema.load_eq_ok_iff hread, ← toOption_ofText hdoc, ofText]

theorem ComponentSchema.load_eq_ok_iff {s : ComponentSchema}
    (hread : disk.readText path = .ok text) (hdoc : Document text (.object fields)) :
    load disk path = .ok s ↔ Schema.component? fields = some s := by
  rw [load, Schema.load_eq_ok_iff hread, ← toOption_ofText hdoc, ofText]

/-- Every text that opens with a brace and is a schema of either kind is a document in object form.
An entity schema in such a document is a component schema with the same attributes. Where either
reader takes an object without attributes, it takes the same schema from one that says so in another
way, and where attributes are neither null nor an object, both refuse it. -/
theorem schema_readers_agree (disk : FileSystem) (path : Path) (text : String)
    (hread : disk.readText path = .ok text) :
    (∀ rest, skipBlank text.toList = '\x7b' :: rest →
      (∃ s, EntitySchema.load disk path = .ok s) ∨ (∃ s, ComponentSchema.load disk path = .ok s) →
      ∃ fields, Document text (.object fields)) ∧
    ∀ fields, Document text (.object fields) →
      (∀ s, EntitySchema.load disk path = .ok s →
        ComponentSchema.load disk path = .ok ⟨s.attributes⟩) ∧
      (∀ disk' path' text' fields', disk'.readText path' = .ok text' →
        Document text' (.object fields') → Schema.SameButEmpty fields fields' →
        (∀ s, EntitySchema.load disk path = .ok s →
          s.attributes = [] ∧ EntitySchema.load disk' path' = .ok s) ∧
        ∀ s, ComponentSchema.load disk path = .ok s →
          s.attributes = [] ∧ ComponentSchema.load disk' path' = .ok s) ∧
      ∀ o, (some "attributes", o) ∈ fields → o ≠ .scalar (some .null) →
        (∀ inner, o ≠ .object inner) →
        (∃ fault, EntitySchema.load disk path = .error (.invalid path fault)) ∧
          ∃ fault, ComponentSchema.load disk path = .error (.invalid path fault) := by
  refine ⟨?object, ?_⟩
  case object =>
    rintro rest hopen (⟨s, hs⟩ | ⟨s, hs⟩)
    · exact Schema.exists_object_of_load Schema.finds_readEntity hread hs hopen
    · exact Schema.exists_object_of_load Schema.finds_readComponent hread hs hopen
  intro fields hdoc
  refine ⟨?attributes, ?empty, ?refused⟩
  case attributes =>
    intro s hs
    rw [EntitySchema.load_eq_ok_iff hread hdoc] at hs
    rw [ComponentSchema.load_eq_ok_iff hread hdoc]
    exact (Schema.entity?_eq_some_iff.mp hs).2
  case empty =>
    intro disk' path' text' fields' hread' hdoc' hsame
    simp only [EntitySchema.load_eq_ok_iff hread hdoc, EntitySchema.load_eq_ok_iff hread' hdoc',
      ComponentSchema.load_eq_ok_iff hread hdoc, ComponentSchema.load_eq_ok_iff hread' hdoc']
    exact ⟨fun s hs => hsame.entity?_eq_some hs, fun s hs => hsame.component?_eq_some hs⟩
  case refused =>
    intro o ho hnull hobject
    have hnone := Schema.component?_eq_none ho hnull hobject
    have hcomponent := (ComponentSchema.toOption_ofText hdoc).trans hnone
    have hentity := (EntitySchema.toOption_ofText hdoc).trans (Schema.entity?_eq_none hnone)
    exact ⟨Schema.exists_load_error hread hentity, Schema.exists_load_error hread hcomponent⟩

end

/-! ### A page without attributes -/

def pageWithNull : String :=
  "\x7b\"info\":\x7b\"singularName\":\"page\"\x7d,\"attributes\":null\x7d"

def pageAlone : String :=
  "\x7b\"info\":\x7b\"singularName\":\"page\"\x7d\x7d"

def pageWithText : String :=
  "\x7b\"info\":\x7b\"singularName\":\"page\"\x7d,\"attributes\":\"none\"\x7d"

/-- The page with a value of some kind as its attributes. -/
theorem document_page {text : String} {o : Outline} {value : List Char}
    (htext : text.toList = '\x7b' :: infoText (',' :: between "attributes" (':' :: value)))
    (ho : Spells 2 value o ['\x7d']) :
    Document text (.object [infoOfPage, (some "attributes", o)]) := by
  refine ⟨3, [], ?_, rfl⟩
  rw [htext]
  exact ⟨_, rfl, .ofMember (member_infoText _)
    (.more rfl (member_between (by simp [IsPlain]) ho) (.stop rfl))⟩

theorem document_pageWithNull :
    Document pageWithNull (.object [infoOfPage, (some "attributes", .scalar (some .null))]) :=
  document_page (by with_unfolding_all rfl) (spells_null 2 ['\x7d'])

theorem document_pageWithText : Document pageWithText
    (.object [infoOfPage, (some "attributes", .scalar (some (.string "none")))]) :=
  document_page (by with_unfolding_all rfl) (spells_between (by simp [IsPlain]) 2 ['\x7d'])

theorem document_pageAlone : Document pageAlone (.object [infoOfPage]) := by
  have htext : pageAlone.toList = '\x7b' :: infoText ['\x7d'] := by with_unfolding_all rfl
  refine ⟨3, [], ?_, rfl⟩
  rw [htext]
  exact ⟨_, rfl, .ofMember (member_infoText _) (.stop rfl)⟩

/-- Where the schema of the page is. -/
def pagePath : Path :=
  (EntityUnit.new (.ofString "/api") "page").schemaPath

theorem load_pageWithNull :
    EntitySchema.load (.loneEntity pageWithNull) pagePath = .ok ⟨"page", []⟩ ∧
    ComponentSchema.load (.loneEntity pageWithNull) pagePath = .ok ⟨[]⟩ ∧
    EntitySchema.load (.loneEntity pageAlone) pagePath = .ok ⟨"page", []⟩ ∧
    ∃ fault, ComponentSchema.load (.loneEntity pageWithText) pagePath
      = .error (.invalid pagePath fault) := by
  have hpage : EntitySchema.load (.loneEntity pageWithNull) pagePath = .ok ⟨"page", []⟩ :=
    (EntitySchema.load_eq_ok_iff (readText_loneEntity _) document_pageWithNull).mpr rfl
  have hsame : Schema.SameButEmpty
      [infoOfPage, (some "attributes", .scalar (some .null))] [infoOfPage] :=
    .intro [infoOfPage] [] (.tail _ (.head _)) (.head _) (by simp)
  obtain ⟨-, hnull⟩ := schema_readers_agree _ pagePath _ (readText_loneEntity pageWithNull)
  obtain ⟨hattributes, hempty, -⟩ := hnull _ document_pageWithNull
  obtain ⟨hentity, -⟩ := hempty _ _ _ _ (readText_loneEntity _) document_pageAlone hsame
  obtain ⟨-, htext⟩ := schema_readers_agree _ pagePath _ (readText_loneEntity pageWithText)
  obtain ⟨-, -, hrefused⟩ := htext _ document_pageWithText
  obtain ⟨-, hcomponent⟩ := hrefused (.scalar (some (.string "none"))) (by simp) (by simp) (by simp)
  exact ⟨hpage, hattributes _ hpage, (hentity _ hpage).2, hcomponent⟩

end ContentTypes
