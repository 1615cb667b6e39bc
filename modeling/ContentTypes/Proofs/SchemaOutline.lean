import ContentTypes.Proofs.Json.Reading
import ContentTypes.Proofs.Schema
import Mathlib
/-!
What a schema says. The readers of schemas are functions of the outline of their text: of the
fields of the text itself, of the attributes with their values and, for entities, of the fields of
`info`.
-/

namespace ContentTypes

open Json

namespace Schema

/-! ### Schemas from outlines -/

/-- A value that may come only once. -/
def once {α : Type} (old value : Option α) : Option α :=
  if old.isSome then none else value

def text? : Outline → Option String
  | .scalar (some (.string s)) => some s
  | _ => none

def infoStep (name : String) (old : Option String) (o : Outline) : Option (Option String) :=
  if name = "singularName" then (once old (text? o)).map some else some old

/-- The singular name in an `info` record. -/
def info? : Outline → Option String
  | .array [o] => text? o
  | .object fields => (Outline.gather infoStep none fields).bind id
  | _ => none

def attributes? : Outline → Option Attributes
  | .scalar (some .null) => some []
  | .object fields =>
    Outline.gather (Outline.keepStep (Outline.value? (bracketLimit - 2))) [] fields
  | _ => none

def entityStep (name : String) (fs : EntityFields) (o : Outline) : Option EntityFields :=
  if name = "info" then (once fs.info (info? o)).map fun v => ⟨some v, fs.attributes⟩
  else if name = "attributes" then
    (once fs.attributes (attributes? o)).map fun v => ⟨fs.info, some v⟩
  else some fs

/-- The schema that the fields of an entity schema come to. -/
def entity? (fields : List Outline.Field) : Option EntitySchema :=
  (Outline.gather entityStep ⟨none, none⟩ fields).bind fun fs =>
    fs.info.map fun name => ⟨name, fs.attributes.getD []⟩

def componentStep (name : String) (old : Option Attributes) (o : Outline) :
    Option (Option Attributes) :=
  if name = "attributes" then (once old (attributes? o)).map some else some old

/-- The schema that the fields of a component schema come to. -/
def component? (fields : List Outline.Field) : Option ComponentSchema :=
  (Outline.gather componentStep none fields).map fun attributes => ⟨attributes.getD []⟩

/-! ### Reading them -/

variable {s t r : List Char} {o : Outline} {depth : Nat}

theorem gives_refuse {α : Type} {p : List Char → Prop} (expected : String) (c : Char)
    (s r : List Char) :
    Gives (refuse (α := α × { r // p r }) expected c s) r none :=
  exists_refuse expected c s

theorem first_of_readScalar {c : Char} {v : Json} {r : UpTo s.length}
    (h : readScalar c s = .ok (v, r)) : (∀ x, v = .string x → c = '"') ∧ (v = .null → c = 'n') := by
  rw [readScalar.eq_def] at h
  split at h
  · obtain ⟨_, -, heq⟩ := exists_of_map_ok h
    cases heq
    simp
  · obtain ⟨_, -, heq⟩ := exists_of_map_ok h
    cases heq
    simp
  · obtain ⟨_, -, heq⟩ := exists_of_map_ok h
    cases heq
    simp
  · obtain ⟨_, -, heq⟩ := exists_of_map_ok h
    cases heq
    simp
  · obtain ⟨⟨a, r'⟩, -, h⟩ := exists_of_bind_ok h
    dsimp only at h
    split at h
    · cases h
      simp
    · cases h
  · obtain ⟨⟨a, r'⟩, -, h⟩ := exists_of_bind_ok h
    dsimp only at h
    split at h
    · cases h
      simp
    · cases h

/-- A scalar that is a string starts with a quote, and null with its first letter. -/
theorem first_of_scalar {c : Char} {value : Option Json} (h : Scalar c s value r) :
    (∀ x, value = some (.string x) → c = '"') ∧ (value = some .null → c = 'n') := by
  have hread := h.read
  cases value with
  | none => simp
  | some v =>
    obtain ⟨_, hv⟩ := hread
    simpa using first_of_readScalar hv

theorem text?_of_scalar {c : Char} {value : Option Json} (h : Scalar c s value r)
    (hc : c ≠ '"') : text? (.scalar value) = none := by
  match value with
  | some (.string x) => exact absurd ((first_of_scalar h).1 x rfl) hc
  | none | some .null | some (.bool _) | some (.number _) | some (.array _) | some (.object _) =>
    rfl

theorem attributes?_of_scalar {c : Char} {value : Option Json} (h : Scalar c s value r)
    (hc : c ≠ 'n') : attributes? (.scalar value) = none := by
  match value with
  | some .null => exact absurd ((first_of_scalar h).2 rfl) hc
  | none | some (.bool _) | some (.number _) | some (.string _) | some (.array _)
  | some (.object _) => rfl

theorem gives_readText {value : Option Json} (h : Scalar '"' s value r) :
    Gives (readText s) r (text? (.scalar value)) := by
  have hread := h.read
  rw [readScalar.eq_def] at hread
  cases htext : readText s with
  | error e =>
    rw [htext] at hread
    cases value with
    | none => exact ⟨e, rfl⟩
    | some v =>
      obtain ⟨_, hv⟩ := hread
      cases hv
  | ok a =>
    rw [htext] at hread
    cases value with
    | none =>
      obtain ⟨e, he⟩ := hread
      cases he
    | some v =>
      obtain ⟨hr, hv⟩ := hread
      cases hv
      exact ⟨a.2.2, rfl⟩

theorem gives_readString (h : Spells depth s o r) : Gives (readString s) r (text? o) := by
  cases o with
  | scalar value =>
    obtain ⟨c, t, hc, hscalar⟩ := h.exists_scalar
    obtain ⟨ht, hhead⟩ := head?_eq_some hc
    rw [readString, hhead]
    by_cases hquote : c = '"'
    · subst hquote
      have hid : text? (.scalar value) = (text? (.scalar value)).map id := by simp
      rw [hid]
      exact (gives_readText hscalar).map id fun _ => rfl
    · simp only [if_neg hquote, text?_of_scalar hscalar hquote]
      exact gives_refuse _ _ _ _
  | array items =>
    obtain ⟨_, t, hopen, -⟩ := h.exists_array
    obtain ⟨ht, hhead⟩ := head?_eq_some hopen
    rw [readString, hhead]
    exact gives_refuse "a string" '[' t r
  | object fields =>
    obtain ⟨_, t, hopen, -⟩ := h.exists_object
    obtain ⟨ht, hhead⟩ := head?_eq_some hopen
    rw [readString, hhead]
    exact gives_refuse "a string" '\x7b' t r

theorem gives_readOnce {α : Type} {value : Reader α} {x : Option α} (name : String)
    (old : Option α) (hcolon : skipBlank s = ':' :: t) (hvalue : Gives (value t) r x) :
    Gives (readOnce name old value s) r (once old x) := by
  rw [readOnce, once]
  split_ifs
  · exact ⟨_, rfl⟩
  · exact gives_afterColon hcolon hvalue

theorem gives_passField {σ : Type} (st : σ) (hcolon : skipBlank s = ':' :: t)
    (ho : Spells depth t o r) :
    Gives ((afterColon passValue s).map fun v => (st, v.2)) r (some st) :=
  (gives_afterColon hcolon (gives_passValue ho)).map (fun _ => st) fun _ => rfl

theorem gives_infoField (name : String) (old : Option String) (s t : List Char) (o : Outline)
    (r : List Char) (hcolon : skipBlank s = ':' :: t) (ho : Spells depth t o r) :
    Gives (infoField name old s) r (infoStep name old o) := by
  rw [infoField, infoStep]
  split_ifs
  · exact (gives_readOnce name old hcolon (gives_readString ho)).map some fun _ => rfl
  · exact gives_passField old hcolon ho

theorem gives_require {α β : Type} (name : String) (x : Option α) (f : α → β) {n : Nat}
    (a : Before n) : Gives (require name x >>= fun v => .ok (f v, a)) a.1 (x.map f) := by
  cases x with
  | none => exact ⟨_, rfl⟩
  | some v => exact ⟨a.2, rfl⟩

theorem gives_readInfo (h : Spells depth s o r) : Gives (readInfo s) r (info? o) := by
  cases o with
  | scalar value =>
    obtain ⟨c, t, hc, hscalar⟩ := h.exists_scalar
    obtain ⟨ht, hhead⟩ := head?_eq_some hc
    rw [readInfo, hhead]
    simp only [if_neg hscalar.ne_square, if_neg hscalar.ne_curly]
    exact gives_refuse _ _ _ _
  | array items =>
    obtain ⟨below, t, hopen, hitems⟩ := h.exists_array
    obtain ⟨ht, hhead⟩ := head?_eq_some hopen
    rw [readInfo, hhead]
    cases hitems with
    | empty hclose =>
      obtain ⟨_, hclose⟩ := head?_eq_some hclose
      simp only [hclose]
      exact ⟨_, rfl⟩
    | @items _ u _ c x xs hfirst hc first rest =>
      obtain ⟨hu, hfirst⟩ := head?_eq_some hfirst
      simp only [hfirst, if_true]
      split
      · next hd =>
        cases hd
        exact absurd rfl hc
      · cases rest with
        | stop hclose =>
          obtain ⟨hr, hclose⟩ := readChar_eq hclose
          have hid : info? (.array [x]) = (text? x).bind some := by simp [info?]
          rw [hid]
          refine (gives_readString first).bind fun name hu => ?_
          simp only [hclose]
          exact ⟨_, rfl⟩
        | @more _ v _ _ y ys hcomma _ _ =>
          obtain ⟨e, hcomma⟩ := readChar_error (c := ']') hcomma (by decide)
          have hnone : info? (.array (x :: y :: ys)) = (text? x).bind fun _ => none := by
            simp [info?]
          rw [hnone]
          refine (gives_readString first).bind fun name hu => ?_
          simp only [hcomma]
          exact ⟨_, rfl⟩
  | object fields =>
    obtain ⟨below, t, hopen, hfields⟩ := h.exists_object
    obtain ⟨ht, hhead⟩ := head?_eq_some hopen
    rw [readInfo, hhead]
    refine (gives_readFields gives_infoField hfields none).bind fun name hu => ?_
    have hname := gives_require "singularName" name id
      (Before.trans ⟨t, ht⟩ ⟨r, hu⟩ : Before s.length)
    rw [Option.map_id_apply] at hname
    exact hname

theorem gives_readAttributes (h : Spells depth s o r) :
    Gives (readAttributes s) r (attributes? o) := by
  cases o with
  | scalar value =>
    obtain ⟨c, t, hc, hscalar⟩ := h.exists_scalar
    obtain ⟨ht, hhead⟩ := head?_eq_some hc
    rw [readAttributes, hhead]
    by_cases hnull : c = 'n'
    · subst hnull
      obtain ⟨hr, hpass⟩ := hscalar.pass
      have hword : readWord ['u', 'l', 'l'] t = .ok ⟨r, hr⟩ := hpass
      have hread := hscalar.read
      rw [readScalar.eq_def] at hread
      simp only [hword] at hread
      cases value with
      | none =>
        obtain ⟨e, he⟩ := hread
        cases he
      | some v =>
        obtain ⟨_, hv⟩ := hread
        cases hv
        simp only [if_true, hword]
        exact ⟨_, rfl⟩
    · simp only [if_neg hnull, if_neg hscalar.ne_curly, attributes?_of_scalar hscalar hnull]
      exact gives_refuse _ _ _ _
  | array items =>
    obtain ⟨_, t, hopen, -⟩ := h.exists_array
    obtain ⟨ht, hhead⟩ := head?_eq_some hopen
    rw [readAttributes, hhead]
    exact gives_refuse "a map" '[' t r
  | object fields =>
    obtain ⟨below, t, hopen, hfields⟩ := h.exists_object
    obtain ⟨ht, hhead⟩ := head?_eq_some hopen
    have hvalue : ∀ s o r, Spells below s o r →
        Gives (readValue (bracketLimit - 2) s) r (o.value? (bracketLimit - 2)) :=
      fun _ _ _ hx => gives_readValue hx _
    have hkept := gives_readFields (gives_keepField hvalue) hfields []
    have hid : attributes? (.object fields) = (attributes? (.object fields)).map id := by simp
    rw [readAttributes, hhead, hid]
    exact hkept.map id fun _ => rfl

theorem gives_entityField (name : String) (fs : EntityFields) (s t : List Char) (o : Outline)
    (r : List Char) (hcolon : skipBlank s = ':' :: t) (ho : Spells depth t o r) :
    Gives (entityField name fs s) r (entityStep name fs o) := by
  rw [entityField, entityStep]
  split_ifs
  · exact (gives_readOnce name fs.info hcolon (gives_readInfo ho)).map _ fun _ => rfl
  · exact (gives_readOnce name fs.attributes hcolon (gives_readAttributes ho)).map _ fun _ => rfl
  · exact gives_passField fs hcolon ho

theorem gives_readEntity {fields : List Outline.Field} (h : Spells depth s (.object fields) r) :
    Gives (readEntity s) r (entity? fields) := by
  obtain ⟨below, t, hopen, hfields⟩ := h.exists_object
  obtain ⟨ht, hhead⟩ := head?_eq_some hopen
  rw [readEntity, hhead]
  refine (gives_readFields gives_entityField hfields ⟨none, none⟩).bind fun fs hu => ?_
  exact gives_require "info" fs.info _ (Before.trans ⟨t, ht⟩ ⟨r, hu⟩ : Before s.length)

theorem gives_componentField (name : String) (old : Option Attributes) (s t : List Char)
    (o : Outline) (r : List Char) (hcolon : skipBlank s = ':' :: t) (ho : Spells depth t o r) :
    Gives (componentField name old s) r (componentStep name old o) := by
  rw [componentField, componentStep]
  split_ifs
  · exact (gives_readOnce name old hcolon (gives_readAttributes ho)).map some fun _ => rfl
  · exact gives_passField old hcolon ho

theorem gives_readComponent {fields : List Outline.Field} (h : Spells depth s (.object fields) r) :
    Gives (readComponent s) r (component? fields) := by
  obtain ⟨below, t, hopen, hfields⟩ := h.exists_object
  obtain ⟨ht, hhead⟩ := head?_eq_some hopen
  rw [readComponent, hhead, component?, Option.map_eq_bind]
  refine (gives_readFields gives_componentField hfields none).bind fun attributes hu => ?_
  exact ⟨(Before.trans ⟨t, ht⟩ ⟨r, hu⟩ : Before s.length).2, rfl⟩

theorem toOption_readDocument {α : Type} {value : Reader α} {text : String} {x : Option α}
    (h : Gives (value text.toList) r x) (hr : skipBlank r = []) :
    (readDocument value text).toOption = x := by
  cases x with
  | none =>
    obtain ⟨e, he⟩ := h
    rw [readDocument, he]
    rfl
  | some v =>
    obtain ⟨_, hv⟩ := h
    rw [readDocument, hv]
    change Except.toOption (if (skipBlank r).isEmpty then _ else _) = _
    rw [hr]
    rfl

end Schema

/-- The schema of a document in object form is that of its fields. -/
theorem EntitySchema.toOption_ofText {text : String} {fields : List Outline.Field}
    (h : Document text (.object fields)) :
    (ofText text).toOption = Schema.entity? fields := by
  obtain ⟨depth, r, hspells, hr⟩ := h
  exact Schema.toOption_readDocument (Schema.gives_readEntity hspells) hr

theorem ComponentSchema.toOption_ofText {text : String} {fields : List Outline.Field}
    (h : Document text (.object fields)) :
    (ofText text).toOption = Schema.component? fields := by
  obtain ⟨depth, r, hspells, hr⟩ := h
  exact Schema.toOption_readDocument (Schema.gives_readComponent hspells) hr

end ContentTypes
