import ContentTypes.Proofs.InterfaceNames
import ContentTypes.Proofs.Json.Rearrangement
import ContentTypes.Proofs.SchemaDocuments
import ContentTypes.Proofs.SchemaOutline
import Mathlib
/-!
Fields that nobody asks for. The declaration of an entity depends on its schema only through the
singular name and the attributes, and on an attribute only through the few fields that say what it
is. The order of the attributes is that of the declaration; no other order matters.
-/

namespace ContentTypes

open Json

/-! ### Attributes -/

/-- The fields that say what an attribute is. -/
def Attribute.vocabulary : List String :=
  ["type", "customField", "enum", "component", "repeatable", "target", "relation", "multiple"]

theorem Attribute.ofJson_congr {e e' : Json}
    (h : ∀ name ∈ vocabulary, e.field? name = e'.field? name) : ofJson e = ofJson e' := by
  simp only [vocabulary, List.forall_mem_cons] at h
  obtain ⟨htype, hcustom, henum, hcomponent, hrepeatable, htarget, hrelation, hmultiple, -⟩ := h
  simp only [ofJson, kindOf, flag, stringField, enumerationValues, htype, hcustom, henum,
    hcomponent, hrepeatable, htarget, hrelation, hmultiple]

/-- What the attributes of a schema are, each under its name. -/
def Attributes.described (attributes : Attributes) : List (String × Attribute) :=
  attributes.map fun a => (a.1, .ofJson a.2)

theorem Table.map_put {κ α β : Type} [DecidableEq κ] (f : α → β) (k : κ) (v : α)
    (t : List (κ × α)) :
    (put k v t).map (fun e => (e.1, f e.2)) = put k (f v) (t.map fun e => (e.1, f e.2)) := by
  induction t with
  | nil => rfl
  | cons e t ih =>
    rw [put, List.map_cons, put]
    split_ifs
    · rfl
    · rw [List.map_cons, ih]

theorem Declaration.collectInto_congr {d : Declaration} {a b : Attributes}
    (h : a.described = b.described) : collectInto d a = collectInto d b := by
  induction a generalizing b d with
  | nil =>
    obtain rfl : b = [] := by simpa [Attributes.described] using h.symm
    rfl
  | cons x a ih =>
    cases b with
    | nil => simp [Attributes.described] at h
    | cons y b =>
      obtain ⟨key, entry⟩ := x
      obtain ⟨key', entry'⟩ := y
      simp only [Attributes.described, List.map_cons, List.cons.injEq, Prod.mk.injEq] at h
      obtain ⟨⟨rfl, hentry⟩, hrest⟩ := h
      rw [collectInto, collectInto, hentry]
      cases (Attribute.ofJson entry').typeExpression with
      | ok type => exact ih hrest
      | error e => rfl

namespace Schema
open Outline

/-! ### One attribute -/

/-- A field that counts where only these names do; one without a name to read is never passed
over. -/
def isKnown (known : List String) (f : Field) : Bool :=
  f.1.all fun name => decide (name ∈ known)

/-- A field of an attribute that counts: one of the vocabulary, and any that would not be read. -/
def countsForAttribute (f : Field) : Bool :=
  isKnown Attribute.vocabulary f || (f.2.value? (bracketLimit - 3)).isNone

/-- Two entries with one meaning: the same entry, or an object with the same fields that count. -/
inductive SameAttribute : Outline → Outline → Prop
  | refl (o : Outline) : SameAttribute o o
  | object {fs gs : List Field} (h : Rearranged countsForAttribute Eq fs gs) :
      SameAttribute (.object fs) (.object gs)

/-- The values of the vocabulary in a table. -/
def vocabularyOf (table : List (String × Json)) (name : String) : Option Json :=
  if name ∈ Attribute.vocabulary then Table.get? name table else none

def vocabularyStep (name : String) (table : String → Option Json) (o : Outline) :
    Option (String → Option Json) :=
  (o.value? (bracketLimit - 3)).map fun v =>
    if name ∈ Attribute.vocabulary then Function.update table name (some v) else table

theorem map_vocabularyOf_keepStep (name : String) (table : List (String × Json)) (o : Outline) :
    (keepStep (value? (bracketLimit - 3)) name table o).map vocabularyOf
      = vocabularyStep name (vocabularyOf table) o := by
  rw [keepStep, vocabularyStep, Option.map_map]
  congr 1
  funext v key
  by_cases hkey : key = name
  · subst hkey
    by_cases hmem : key ∈ Attribute.vocabulary
    · simp [vocabularyOf, hmem, Table.get?_put_self]
    · simp [vocabularyOf, hmem]
  · by_cases hmem : name ∈ Attribute.vocabulary
    · simp [vocabularyOf, hmem, Function.update_of_ne hkey, Table.get?_put_of_ne hkey]
    · simp [vocabularyOf, hmem, Table.get?_put_of_ne hkey]

theorem commutes_vocabularyStep : Commutes vocabularyStep := by
  intro name name' table x y hne
  simp only [vocabularyStep]
  cases x.value? (bracketLimit - 3) with
  | none => simp
  | some v =>
    cases y.value? (bracketLimit - 3) with
    | none => simp
    | some w =>
      simp only [Option.map_some, Option.bind_some]
      split_ifs
      · rw [Function.update_comm hne]
      · rfl
      · rfl
      · rfl

theorem take_vocabularyStep_of_not_counts {f : Field} (h : countsForAttribute f = false)
    (table : String → Option Json) : take vocabularyStep table f = some table := by
  obtain ⟨name, o⟩ := f
  rw [countsForAttribute, Bool.or_eq_false_iff, Option.isNone_eq_false_iff,
    Option.isSome_iff_exists] at h
  obtain ⟨hknown, v, hv⟩ := h
  cases name with
  | none => simp [isKnown] at hknown
  | some name =>
    have hname : name ∉ Attribute.vocabulary := by simpa [isKnown] using hknown
    simp only [take, vocabularyStep, hv, Option.bind_some, Option.map_some, if_neg hname]

/-- The attribute that an entry stands for, if its value is within the limits. -/
def attribute? (o : Outline) : Option Attribute :=
  (o.value? (bracketLimit - 2)).map .ofJson

theorem attribute?_object (fs : List Field) :
    attribute? (.object fs)
      = ((gather (keepStep (value? (bracketLimit - 3))) [] fs).map Json.object).map .ofJson :=
  rfl

theorem SameAttribute.attribute?_eq {x y : Outline} (h : SameAttribute x y) :
    attribute? x = attribute? y := by
  cases h with
  | refl => rfl
  | @object fs gs h =>
    have hviews : (gather (keepStep (value? (bracketLimit - 3))) [] fs).map vocabularyOf
        = (gather (keepStep (value? (bracketLimit - 3))) [] gs).map vocabularyOf := by
      rw [map_gather map_vocabularyOf_keepStep, map_gather map_vocabularyOf_keepStep]
      refine gather_rearranged commutes_vocabularyStep
        (fun f hf => take_vocabularyStep_of_not_counts hf) ?_ h _
      rintro f _ rfl table
      rfl
    rw [attribute?_object, attribute?_object]
    generalize gather (keepStep (value? (bracketLimit - 3))) [] fs = table at hviews ⊢
    generalize gather (keepStep (value? (bracketLimit - 3))) [] gs = table' at hviews ⊢
    match table, table' with
    | none, none => rfl
    | some table, some table' =>
      refine congrArg some (Attribute.ofJson_congr fun name hname => ?_)
      have hview := congrFun (Option.some.inj hviews) name
      simpa only [vocabularyOf, if_pos hname, field?] using hview

/-! ### All attributes -/

/-- The same attributes in the same order, each with the same meaning; or no object at all. -/
inductive SameAttributes : Outline → Outline → Prop
  | refl (o : Outline) : SameAttributes o o
  | object {fs gs : List Field}
      (h : List.Forall₂ (fun f g => f.1 = g.1 ∧ SameAttribute f.2 g.2) fs gs) :
      SameAttributes (.object fs) (.object gs)

theorem SameAttributes.described_eq {x y : Outline} (h : SameAttributes x y) :
    (attributes? x).map Attributes.described = (attributes? y).map Attributes.described := by
  cases h with
  | refl => rfl
  | @object fs gs h =>
    have hview : ∀ name (table : Attributes) o,
        (keepStep (value? (bracketLimit - 2)) name table o).map Attributes.described
          = keepStep attribute? name table.described o := by
      intro name table o
      simp only [keepStep, attribute?, Option.map_map]
      congr 1
      funext v
      exact Table.map_put Attribute.ofJson name v table
    simp only [attributes?, map_gather hview]
    refine gather_forall₂ ?_ h _
    rintro ⟨name, o⟩ ⟨_, o'⟩ ⟨rfl, hsame⟩ table
    simp only [take, keepStep, hsame.attribute?_eq]

/-! ### The record `info` -/

/-- The same singular name; or no object at all. -/
inductive SameInfo : Outline → Outline → Prop
  | refl (o : Outline) : SameInfo o o
  | object {fs gs : List Field} (h : Rearranged (isKnown ["singularName"]) Eq fs gs) :
      SameInfo (.object fs) (.object gs)

theorem take_eq_some_of_unknown {σ : Type} {step : String → σ → Outline → Option σ}
    {known : List String} (hstep : ∀ name ∉ known, ∀ st o, step name st o = some st) {f : Field}
    (h : isKnown known f = false) (st : σ) : take step st f = some st := by
  obtain ⟨name, o⟩ := f
  cases name with
  | none => simp [isKnown] at h
  | some name => exact hstep name (by simpa [isKnown] using h) st o

theorem infoStep_of_ne {name : String} (h : name ≠ "singularName") (old : Option String)
    (o : Outline) : infoStep name old o = some old := by
  rw [infoStep, if_neg h]

theorem commutes_infoStep : Commutes infoStep := by
  intro name name' old x y hne
  by_cases hname : name = "singularName"
  · have hname' : name' ≠ "singularName" := fun h => hne (hname.trans h.symm)
    simp only [infoStep_of_ne hname', Option.bind_some, Option.bind_fun_some]
  · simp only [infoStep_of_ne hname, Option.bind_some, Option.bind_fun_some]

theorem SameInfo.info?_eq {x y : Outline} (h : SameInfo x y) : info? x = info? y := by
  cases h with
  | refl => rfl
  | @object fs gs h =>
    have hunknown : ∀ name ∉ ["singularName"], ∀ old o, infoStep name old o = some old :=
      fun name hname => infoStep_of_ne (by simpa using hname)
    have hsame : ∀ f g, f = g → ∀ old, take infoStep old f = take infoStep old g := by
      rintro f _ rfl old
      rfl
    simp only [info?]
    rw [gather_rearranged commutes_infoStep (fun f => take_eq_some_of_unknown hunknown) hsame h]

/-! ### The whole schema -/

/-- The two fields of a schema that count, each with the same meaning. -/
def SameField (f g : Field) : Prop :=
  f.1 = g.1 ∧ (f.1 = some "info" → SameInfo f.2 g.2) ∧
    (f.1 = some "attributes" → SameAttributes f.2 g.2)

/-- Two schemas with one meaning, by their fields. -/
def SameSchema (fs gs : List Field) : Prop :=
  Rearranged (isKnown ["info", "attributes"]) SameField fs gs

/-- What is seen of a schema while its fields are read. -/
abbrev View := Option String × Option (List (String × Attribute))

def viewOf (fs : EntityFields) : View :=
  (fs.info, fs.attributes.map Attributes.described)

def viewStep (name : String) (view : View) (o : Outline) : Option View :=
  if name = "info" then (once view.1 (info? o)).map fun v => (some v, view.2)
  else if name = "attributes" then
    (once view.2 ((attributes? o).map Attributes.described)).map fun v => (view.1, some v)
  else some view

theorem map_once {α β : Type} (f : α → β) (old value : Option α) :
    (once old value).map f = once (old.map f) (value.map f) := by
  cases old <;> rfl

theorem map_viewOf_entityStep (name : String) (fs : EntityFields) (o : Outline) :
    (entityStep name fs o).map viewOf = viewStep name (viewOf fs) o := by
  rw [entityStep, viewStep]
  split_ifs
  · rw [Option.map_map]
    rfl
  · simp only [viewOf, ← map_once, Option.map_map]
    rfl
  · rfl

theorem viewStep_of_unknown {name : String} (h : name ∉ ["info", "attributes"]) (view : View)
    (o : Outline) : viewStep name view o = some view := by
  simp only [List.mem_cons, List.not_mem_nil, or_false, not_or] at h
  rw [viewStep, if_neg h.1, if_neg h.2]

theorem viewStep_info_attributes (view : View) (x y : Outline) :
    (viewStep "info" view x).bind (viewStep "attributes" · y)
      = (viewStep "attributes" view y).bind (viewStep "info" · x) := by
  have hne : "attributes" ≠ "info" := by decide
  simp only [viewStep, if_true, if_neg hne]
  cases hinfo : once view.1 (info? x) <;>
    cases hattributes : once view.2 ((attributes? y).map Attributes.described) <;>
    simp [hinfo, hattributes]

theorem commutes_viewStep : Commutes viewStep := by
  intro name name' view x y hne
  by_cases hname : name ∉ ["info", "attributes"]
  · simp only [viewStep_of_unknown hname, Option.bind_some, Option.bind_fun_some]
  · by_cases hname' : name' ∉ ["info", "attributes"]
    · simp only [viewStep_of_unknown hname', Option.bind_some, Option.bind_fun_some]
    · simp only [List.mem_cons, List.not_mem_nil, or_false, not_not] at hname hname'
      obtain rfl | rfl := hname
      · obtain rfl | rfl := hname'
        · exact absurd rfl hne
        · exact viewStep_info_attributes view x y
      · obtain rfl | rfl := hname'
        · exact (viewStep_info_attributes view y x).symm
        · exact absurd rfl hne

theorem SameSchema.view_eq {fs gs : List Field} (h : SameSchema fs gs) :
    (gather entityStep ⟨none, none⟩ fs).map viewOf
      = (gather entityStep ⟨none, none⟩ gs).map viewOf := by
  have hunknown : ∀ f, isKnown ["info", "attributes"] f = false →
      ∀ view, take viewStep view f = some view :=
    fun f => take_eq_some_of_unknown fun name => viewStep_of_unknown
  have hsame : ∀ f g, SameField f g → ∀ view, take viewStep view f = take viewStep view g := by
    rintro ⟨name, x⟩ ⟨_, y⟩ ⟨rfl, hinfo, hattributes⟩ view
    cases name with
    | none => rfl
    | some name =>
      simp only [take, Option.bind_some, viewStep]
      split_ifs with hi ha
      · rw [(hinfo (congrArg some hi)).info?_eq]
      · rw [(hattributes (congrArg some ha)).described_eq]
      · rfl
  rw [map_gather map_viewOf_entityStep, map_gather map_viewOf_entityStep]
  exact gather_rearranged commutes_viewStep hunknown hsame h _

/-- Schemas with one meaning have one singular name and describe the same attributes, if they are
schemas at all. -/
theorem SameSchema.entity?_eq {fs gs : List Field} (h : SameSchema fs gs) :
    (entity? fs).map (fun s => (s.singularName, s.attributes.described))
      = (entity? gs).map fun s => (s.singularName, s.attributes.described) := by
  have hview : ∀ fields, (entity? fields).map (fun s => (s.singularName, s.attributes.described))
      = ((gather entityStep ⟨none, none⟩ fields).map viewOf).bind fun view =>
          view.1.map fun name => (name, view.2.getD []) := by
    intro fields
    rw [entity?, Option.map_bind]
    cases gather entityStep ⟨none, none⟩ fields with
    | none => rfl
    | some st =>
      obtain ⟨info, attributes⟩ := st
      cases info <;> cases attributes <;> rfl
  rw [hview, hview, h.view_eq]

end Schema

/-! ### Declarations -/

theorem Walk.toOption_collectEntity_congr {fs fs' : FileSystem} {u u' : EntityUnit}
    (h : (EntitySchema.load fs u.schemaPath).toOption.map
        (fun s => (s.singularName, s.attributes.described))
      = (EntitySchema.load fs' u'.schemaPath).toOption.map
        fun s => (s.singularName, s.attributes.described)) :
    (collectEntity fs u).toOption = (collectEntity fs' u').toOption := by
  rw [collectEntity, collectEntity, collect.eq_def, collect.eq_def]
  cases hs : EntitySchema.load fs u.schemaPath with
  | error e =>
    cases hs' : EntitySchema.load fs' u'.schemaPath with
    | error e' => rfl
    | ok s' => simp [hs, hs', Except.toOption] at h
  | ok s =>
    cases hs' : EntitySchema.load fs' u'.schemaPath with
    | error e' => simp [hs, hs', Except.toOption] at h
    | ok s' =>
      simp only [hs, hs', Except.toOption, Option.map_some, Option.some.injEq,
        Prod.mk.injEq] at h
      obtain ⟨hname, hattributes⟩ := h
      dsimp only
      rw [hname]
      cases Declaration.entityName s'.singularName with
      | error e => rfl
      | ok n =>
        dsimp only
        rw [Declaration.collect, Declaration.collect, Declaration.collectInto_congr hattributes]
        cases Declaration.collectInto (.new n .entity) s'.attributes <;> rfl

theorem EntitySchema.toOption_load {fs : FileSystem} {path : Path} {text : String}
    (h : fs.readText path = .ok text) : (load fs path).toOption = (ofText text).toOption := by
  rw [load, Schema.load_of_readText h, ofText]
  cases readDocument Schema.readEntity text <;> rfl

/-- Every text that is an entity schema is a document. Two documents in object form with one
meaning, in whatever places they are, are declared in one way: under the same name and with the
same fields in the same order. Or else neither is declared. -/
theorem collectEntity_eq_of_sameSchema :
    (∀ text schema, EntitySchema.ofText text = .ok schema → ∃ o, Document text o) ∧
    ∀ (fs fs' : FileSystem) (u u' : EntityUnit) (text text' : String)
      (fields fields' : List Outline.Field),
      fs.readText u.schemaPath = .ok text → fs'.readText u'.schemaPath = .ok text' →
      Document text (.object fields) → Document text' (.object fields') →
      Schema.SameSchema fields fields' →
      (Walk.collectEntity fs u).toOption = (Walk.collectEntity fs' u').toOption := by
  constructor
  · intro text schema h
    exact EntitySchema.exists_document h
  · intro fs fs' u u' text text' fields fields' hread hread' hdoc hdoc' hsame
    apply Walk.toOption_collectEntity_congr
    rw [EntitySchema.toOption_load hread, EntitySchema.toOption_load hread',
      EntitySchema.toOption_ofText hdoc, EntitySchema.toOption_ofText hdoc', hsame.entity?_eq]

/-! ### A page, written twice -/

def schemaOfTitle : String :=
  "\x7b\"info\":\x7b\"singularName\":\"page\"\x7d,"
    ++ "\"attributes\":\x7b\"title\":\x7b\"type\":\"text\"\x7d\x7d\x7d"

/-- The same schema in another order, with a bound on the title and a kind. -/
def schemaOfBoundTitle : String :=
  "\x7b\"kind\":\"single\","
    ++ "\"attributes\":\x7b\"title\":\x7b\"max\":\"9\",\"type\":\"text\"\x7d\x7d,"
    ++ "\"info\":\x7b\"singularName\":\"page\"\x7d\x7d"

def infoOfPage : Outline.Field :=
  (some "info", .object [(some "singularName", .scalar (some (.string "page")))])

def attributesOfPage (title : List Outline.Field) : Outline.Field :=
  (some "attributes", .object [(some "title", .object title)])

def titleType : Outline.Field :=
  (some "type", .scalar (some (.string "text")))

def titleMax : Outline.Field :=
  (some "max", .scalar (some (.string "9")))

def kindOfPage : Outline.Field :=
  (some "kind", .scalar (some (.string "single")))

/-- The text of `infoOfPage` and what follows it. -/
def infoText (rest : List Char) : List Char :=
  between "info" (':' :: '\x7b' :: between "singularName" (':' :: between "page"
    ('\x7d' :: rest)))

def attributesText (title : List Char) : List Char :=
  between "attributes" (':' :: '\x7b' :: between "title" (':' :: '\x7b' :: title))

def typeText (rest : List Char) : List Char :=
  between "type" (':' :: between "text" rest)

theorem toList_schemaOfTitle : schemaOfTitle.toList
    = '\x7b' :: infoText (',' :: attributesText (typeText ['\x7d', '\x7d', '\x7d'])) := by
  with_unfolding_all rfl

theorem toList_schemaOfBoundTitle : schemaOfBoundTitle.toList
    = '\x7b' :: between "kind" (':' :: between "single" (',' :: attributesText (between "max"
      (':' :: between "9" (',' :: typeText ('\x7d' :: '\x7d' :: ',' :: infoText ['\x7d'])))))) := by
  with_unfolding_all rfl

theorem member_infoText (rest : List Char) :
    Member (Spells 2) (infoText rest) infoOfPage rest :=
  member_between (by simp [IsPlain]) ⟨_, rfl, .ofMember
    (member_between (by simp [IsPlain]) (spells_between (by simp [IsPlain]) _ _)) (.stop rfl)⟩

theorem member_typeText (rest : List Char) :
    Member (Spells 0) (typeText rest) titleType rest :=
  member_between (by simp [IsPlain]) (spells_between (by simp [IsPlain]) _ _)

theorem member_attributesText {title rest : List Char} {fs : List Outline.Field}
    (h : Bracketed (Member (Spells 0)) '\x7d' title fs ('\x7d' :: rest)) :
    Member (Spells 2) (attributesText title) (attributesOfPage fs) rest :=
  member_between (by simp [IsPlain]) ⟨_, rfl, .ofMember
    (member_between (by simp [IsPlain]) ⟨_, rfl, h⟩) (.stop rfl)⟩

theorem document_schemaOfTitle :
    Document schemaOfTitle (.object [infoOfPage, attributesOfPage [titleType]]) := by
  refine ⟨3, [], ?_, rfl⟩
  rw [toList_schemaOfTitle]
  have htitle : Bracketed (Member (Spells 0)) '\x7d' (typeText ['\x7d', '\x7d', '\x7d'])
      [titleType] ['\x7d', '\x7d'] := .ofMember (member_typeText _) (.stop rfl)
  exact ⟨_, rfl, .ofMember (member_infoText _)
    (.more rfl (member_attributesText htitle) (.stop rfl))⟩

theorem document_schemaOfBoundTitle : Document schemaOfBoundTitle
    (.object [kindOfPage, attributesOfPage [titleMax, titleType], infoOfPage]) := by
  refine ⟨3, [], ?_, rfl⟩
  rw [toList_schemaOfBoundTitle]
  have hkind : ∀ rest, Member (Spells 2) (between "kind" (':' :: between "single" rest))
      kindOfPage rest :=
    fun rest => member_between (by simp [IsPlain]) (spells_between (by simp [IsPlain]) _ _)
  have hmax : ∀ rest, Member (Spells 0) (between "max" (':' :: between "9" rest))
      titleMax rest :=
    fun rest => member_between (by simp [IsPlain]) (spells_between (by simp [IsPlain]) _ _)
  exact ⟨_, rfl, .ofMember (hkind _)
    (.more rfl (member_attributesText (.ofMember (hmax _)
      (.more rfl (member_typeText _) (.stop rfl))))
      (.more rfl (member_infoText _) (.stop rfl)))⟩

theorem sameSchema_titles : Schema.SameSchema [infoOfPage, attributesOfPage [titleType]]
    [kindOfPage, attributesOfPage [titleMax, titleType], infoOfPage] := by
  have htitle : Outline.Rearranged Schema.countsForAttribute Eq [titleType]
      [titleMax, titleType] :=
    ⟨by decide, [titleType], .refl _, .cons rfl .nil⟩
  have hinfo : Schema.SameField infoOfPage infoOfPage :=
    ⟨rfl, fun _ => .refl _, fun h => absurd h (by decide)⟩
  have hattributes : Schema.SameField (attributesOfPage [titleType])
      (attributesOfPage [titleMax, titleType]) :=
    ⟨rfl, fun h => absurd h (by decide),
      fun _ => .object (.cons ⟨rfl, .object htitle⟩ .nil)⟩
  exact ⟨by decide, [attributesOfPage [titleType], infoOfPage], .swap _ _ _,
    .cons hattributes (.cons hinfo .nil)⟩

theorem collectEntity_schemaOfTitle :
    Walk.collectEntity (.loneEntity schemaOfTitle) (.new (.ofString "/api") "page")
      = .ok ⟨"APIPage", .entity, [("id", "number"), ("title", "string")]⟩ := by
  have hs : EntitySchema.ofText schemaOfTitle
      = .ok ⟨"page", [("title", .object [("type", .string "text")])]⟩ := by
    have hoption := EntitySchema.toOption_ofText document_schemaOfTitle
    cases htext : EntitySchema.ofText schemaOfTitle with
    | error e =>
      rw [htext] at hoption
      cases hoption
    | ok s =>
      rw [htext] at hoption
      cases hoption
      rfl
  have hn : Declaration.entityName "page" = .ok "APIPage" :=
    Declaration.entityName_eq_ok_iff.mpr
      ⟨"Page", Casing.caseName_eq_ok_iff.mpr (by decide), rfl⟩
  have htype : (Attribute.ofJson (.object [("type", .string "text")])).typeExpression
      = .ok "string" := by cbv
  simp only [Walk.collectEntity, load_loneEntity hs, Walk.collect, hn, Declaration.collect,
    Declaration.collectInto, htype]
  rfl

theorem collectEntity_schemaOfBoundTitle :
    Document schemaOfTitle (.object [infoOfPage, attributesOfPage [titleType]]) ∧
      Document schemaOfBoundTitle
        (.object [kindOfPage, attributesOfPage [titleMax, titleType], infoOfPage]) ∧
      Schema.SameSchema [infoOfPage, attributesOfPage [titleType]]
        [kindOfPage, attributesOfPage [titleMax, titleType], infoOfPage] ∧
      (Walk.collectEntity (.loneEntity schemaOfBoundTitle)
        (.new (.ofString "/api") "page")).toOption
          = some ⟨"APIPage", .entity, [("id", "number"), ("title", "string")]⟩ := by
  obtain ⟨-, hsame⟩ := collectEntity_eq_of_sameSchema
  have hcollect := hsame _ _ _ _ _ _ _ _ (readText_loneEntity _) (readText_loneEntity _)
    document_schemaOfTitle document_schemaOfBoundTitle sameSchema_titles
  rw [collectEntity_schemaOfTitle] at hcollect
  exact ⟨document_schemaOfTitle, document_schemaOfBoundTitle, sameSchema_titles, hcollect.symm⟩

end ContentTypes
