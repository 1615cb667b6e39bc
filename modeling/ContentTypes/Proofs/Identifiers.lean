import ContentTypes.Proofs.Casing.Letters
import ContentTypes.Proofs.Deduplication
import ContentTypes.Proofs.InterfaceNames
import Mathlib
/-!
Every name that is formed is an identifier: a stem with at least one letter or digit behind it.
Entities and components have stems of their own, so no name of one is a name of the other, and
their collisions are resolved side by side.
-/

namespace ContentTypes

/-- A stem, and behind it one or more ASCII letters and digits. -/
def IsIdentifier (stem s : String) : Prop :=
  ∃ body : List Char, s = stem ++ String.ofList body ∧ body ≠ [] ∧ ∀ c ∈ body, c.isAlphanum

theorem IsIdentifier.head?_eq {stem s : String} {c : Char} (h : IsIdentifier stem s)
    (hc : stem.toList.head? = some c) : s.toList.head? = some c := by
  obtain ⟨body, rfl, -, -⟩ := h
  simp [String.toList_append, hc]

/-- No name has both stems. -/
theorem not_isIdentifier_component_of_entity {s : String}
    (h : IsIdentifier Attribute.entityStem s) : ¬ IsIdentifier Attribute.componentStem s := by
  intro h'
  have he : s.toList.head? = some 'A' := h.head?_eq rfl
  have hc : s.toList.head? = some 'C' := h'.head?_eq rfl
  rw [he] at hc
  exact absurd hc (by decide)

/-! ### What names are made of -/

namespace Casing

theorem isAlphanum_of_mem_plural {c : Char} {l : List Char} (hl : ∀ x ∈ l, x.isAlphanum)
    (h : c ∈ plural l) : c.isAlphanum := by
  rw [plural] at h
  split_ifs at h
  · exact hl c h
  · rcases List.mem_append.mp h with h | h
    · exact hl c h
    · rw [List.mem_singleton.mp h]
      rfl

theorem plural_ne_nil (l : List Char) : plural l ≠ [] := by
  intro h
  have hlast := getLast?_plural l
  rw [h] at hlast
  cases hlast

theorem isIdentifier_of_caseName {s n : String} (h : caseName s = .ok n) (stem : String) :
    IsIdentifier stem (stem ++ n) := by
  obtain ⟨hne, hn⟩ := caseName_eq_ok_iff.mp h
  refine ⟨n.toList, by rw [String.ofList_toList], hn ▸ hne, ?_⟩
  intro c hc
  exact isAlphanum_of_mem_spelling (hn ▸ hc)

theorem isIdentifier_pluralize {s n : String} (h : caseName s = .ok n) (stem : String) :
    IsIdentifier stem (stem ++ pluralize n) := by
  obtain ⟨-, hn⟩ := caseName_eq_ok_iff.mp h
  refine ⟨(pluralize n).toList, by rw [String.ofList_toList], ?_, ?_⟩
  · rw [toList_pluralize]
    exact plural_ne_nil _
  · intro c hc
    rw [toList_pluralize] at hc
    apply isAlphanum_of_mem_plural _ hc
    intro x hx
    exact isAlphanum_of_mem_spelling (hn ▸ hx)

end Casing

open Casing

theorem Declaration.isIdentifier_entityName {singularName n : String}
    (h : entityName singularName = .ok n) : IsIdentifier Attribute.entityStem n := by
  obtain ⟨name, hcase, rfl⟩ := entityName_eq_ok_iff.mp h
  exact isIdentifier_of_caseName hcase _

theorem Declaration.isIdentifier_componentName {group stem n : String}
    (h : componentName group stem = .ok n) : IsIdentifier Attribute.componentStem n := by
  rw [componentName_eq] at h
  cases h
  have hlast : spelling (plural stem.toList) ≠ [] := by
    rcases List.eq_nil_or_concat (plural stem.toList) with hnil | ⟨p, c, hp⟩
    · exact absurd hnil (plural_ne_nil _)
    · have hs := getLast?_plural stem.toList
      rw [hp, List.concat_eq_append, List.getLast?_concat] at hs
      cases hs
      obtain ⟨t, ht⟩ := spelling_concat_s p
      rw [hp, List.concat_eq_append, ht]
      simp
  refine ⟨_, rfl, by simp [hlast], ?_⟩
  intro c hc
  rcases List.mem_append.mp hc with hc | hc
  · exact isAlphanum_of_mem_spelling hc
  · exact isAlphanum_of_mem_spelling hc

/-! ### References -/

namespace Attribute

theorem exists_isIdentifier_of_relation {target : Option String}
    {cardinality : Option Cardinality} {type : String}
    (h : relationType target cardinality = .ok type) :
    ∃ name, IsIdentifier entityStem name ∧
      type = name ++ listMark (cardinality.any Cardinality.isPlural) := by
  rw [relationType] at h
  cases hs : secondSegment? (target.getD "") with
  | none => simp [hs] at h
  | some segment =>
    cases hc : Casing.caseName segment with
    | error e => simp [hs, Attribute.caseName, hc, Except.mapError, Except.map] at h
    | ok name =>
      have htype :
          entityStem ++ name ++ listMark (cardinality.any Cardinality.isPlural) = type := by
        simpa [hs, Attribute.caseName, hc, Except.mapError, Except.map] using h
      exact ⟨_, isIdentifier_of_caseName hc _, htype.symm⟩

theorem exists_isIdentifier_of_component {reference : Option String} {repeatable : Bool}
    {type : String} (h : componentType reference repeatable = .ok type) :
    ∃ name, IsIdentifier componentStem name ∧ type = name ++ listMark repeatable := by
  cases reference with
  | none => cases h
  | some r =>
    cases hc : Casing.caseName r with
    | error e => simp [componentType, Attribute.caseName, hc, Except.mapError, Except.map] at h
    | ok name =>
      have htype : componentStem ++ pluralize name ++ listMark repeatable = type := by
        simpa [componentType, Attribute.caseName, hc, Except.mapError, Except.map] using h
      exact ⟨_, isIdentifier_pluralize hc _, htype.symm⟩

theorem name_or_list_of_listMark {name type : String} {many : Bool}
    (h : type = name ++ listMark many) : type = name ∨ type = name ++ "[]" := by
  cases many with
  | true => exact .inr h
  | false => exact .inl (h.trans (String.append_empty))

end Attribute

/-! ### Collisions -/

namespace Walk

variable {fs : FileSystem} {us : List EntityUnit} {vs : List ComponentUnit} {d : Declaration}

theorem isIdentifier_of_mem_entities (h : d ∈ (entities fs us).declarations) :
    IsIdentifier Attribute.entityStem d.name := by
  obtain ⟨u, -, hu⟩ := List.mem_map.mp (mem_declarations_ofResults.mp h)
  obtain ⟨s, -, hname⟩ := exists_schema_of_collectEntity hu
  exact Declaration.isIdentifier_entityName hname

theorem isIdentifier_of_mem_components (h : d ∈ (components fs vs).declarations) :
    IsIdentifier Attribute.componentStem d.name := by
  obtain ⟨u, -, hu⟩ := List.mem_map.mp (mem_declarations_ofResults.mp h)
  exact Declaration.isIdentifier_componentName (name_of_collectComponent hu)

theorem name_notMem_components (h : d ∈ (entities fs us).declarations) :
    d.name ∉ Collision.names (components fs vs).declarations := by
  intro hmem
  obtain ⟨c, hc, hname⟩ := Collision.mem_names_iff.mp hmem
  have hid := isIdentifier_of_mem_components hc
  rw [hname] at hid
  exact not_isIdentifier_component_of_entity (isIdentifier_of_mem_entities h) hid

end Walk

/-- The two walks of a project are resolved each for itself. -/
theorem exists_resolve_walks {policy : CollisionPolicy}
    (hp : policy = .firstWins ∨ policy = .lastWins) (fs : FileSystem)
    (dirs : SchemaDirectories) : ∃ es cs,
      Collision.resolve policy (dirs.entityWalk fs).declarations = .ok es ∧
        Collision.resolve policy (dirs.componentWalk fs).declarations = .ok cs ∧
        Collision.resolve policy (dirs.collected fs) = .ok (es ++ cs) := by
  apply Collision.resolve_append hp
  intro n hn
  obtain ⟨d, hd, rfl⟩ := Collision.mem_names_iff.mp hn
  exact Walk.name_notMem_components hd

/-- Names of declarations and types of references are identifiers, those of entities and those of
components with a stem of their own, and a component always has a name. So no entity of a project
has the name of a component, and what a generation keeps under `first-wins` or `last-wins` is what
is kept of the entities and then what is kept of the components. -/
theorem names_are_identifiers_apart :
    (∀ singularName n, Declaration.entityName singularName = .ok n → IsIdentifier "API" n) ∧
    (∀ group stem, ∃ n, Declaration.componentName group stem = .ok n ∧
      IsIdentifier "Components" n) ∧
    (∀ target cardinality type,
      (⟨false, .relation target cardinality⟩ : Attribute).typeExpression = .ok type →
        ∃ name, IsIdentifier "API" name ∧ (type = name ∨ type = name ++ "[]")) ∧
    (∀ reference repeatable type,
      (⟨false, .component reference repeatable⟩ : Attribute).typeExpression = .ok type →
        ∃ name, IsIdentifier "Components" name ∧ (type = name ∨ type = name ++ "[]")) ∧
    ∀ (fs : FileSystem) (dirs : SchemaDirectories),
      (∀ e ∈ (dirs.entityWalk fs).declarations, ∀ c ∈ (dirs.componentWalk fs).declarations,
        e.name ≠ c.name) ∧
      ∀ policy, policy = .firstWins ∨ policy = .lastWins → ∃ es cs,
        Collision.resolve policy (dirs.entityWalk fs).declarations = .ok es ∧
        Collision.resolve policy (dirs.componentWalk fs).declarations = .ok cs ∧
        Collision.resolve policy
          ((dirs.entityWalk fs).declarations ++ (dirs.componentWalk fs).declarations)
            = .ok (es ++ cs) ∧
        ∀ layout, ∃ g, generate fs dirs policy layout = .ok g ∧
          g.declarations = es.kept ++ cs.kept := by
  refine ⟨?entity, ?component, ?relation, ?reference, ?project⟩
  case entity =>
    intro singularName n h
    exact Declaration.isIdentifier_entityName h
  case component =>
    intro group stem
    have h := Declaration.componentName_eq group stem
    exact ⟨_, h, Declaration.isIdentifier_componentName h⟩
  case relation =>
    intro target cardinality type h
    obtain ⟨name, hname, htype⟩ := Attribute.exists_isIdentifier_of_relation h
    exact ⟨name, hname, Attribute.name_or_list_of_listMark htype⟩
  case reference =>
    intro reference repeatable type h
    obtain ⟨name, hname, htype⟩ := Attribute.exists_isIdentifier_of_component h
    exact ⟨name, hname, Attribute.name_or_list_of_listMark htype⟩
  case project =>
    intro fs dirs
    refine ⟨?_, ?_⟩
    · intro e he c hc hname
      exact Walk.name_notMem_components he (Collision.mem_names_iff.mpr ⟨c, hc, hname.symm⟩)
    · intro policy hp
      obtain ⟨es, cs, hes, hcs, hall⟩ := exists_resolve_walks hp fs dirs
      refine ⟨es, cs, hes, hcs, hall, ?_⟩
      intro layout
      exact ⟨_, generate_of_resolve layout hall, rfl⟩

/-- One name of each kind, and a project of one entity, which is kept. -/
theorem identifiers_blogPost :
    Declaration.entityName "blog-post" = .ok "APIBlogPost" ∧ IsIdentifier "API" "APIBlogPost" ∧
      (⟨false, .relation (some "api::blog.blog-post") (some .oneToMany)⟩ : Attribute).typeExpression
        = .ok "APIBlogPost[]" ∧
      (∃ name, IsIdentifier "API" name ∧
        ("APIBlogPost[]" = name ∨ "APIBlogPost[]" = name ++ "[]")) ∧
      (⟨false, .component (some "layout.hero") true⟩ : Attribute).typeExpression
        = .ok "ComponentsLayoutHeros[]" ∧
      (∃ name, IsIdentifier "Components" name ∧
        ("ComponentsLayoutHeros[]" = name ∨ "ComponentsLayoutHeros[]" = name ++ "[]")) ∧
      ∃ es cs, Collision.resolve .lastWins
          (SchemaDirectories.atRoot.entityWalk (.loneEntity (schemaNamed "page"))).declarations
            = .ok es ∧
        Collision.resolve .lastWins
          (SchemaDirectories.atRoot.componentWalk (.loneEntity (schemaNamed "page"))).declarations
            = .ok cs ∧
        es.kept ++ cs.kept = [.new "APIPage" .entity] := by
  obtain ⟨hentity, -, hrelation, hreference, hproject⟩ := names_are_identifiers_apart
  have hname : Declaration.entityName "blog-post" = .ok "APIBlogPost" :=
    Declaration.entityName_eq_ok_iff.mpr ⟨"BlogPost", caseName_eq_ok_iff.mpr (by decide), rfl⟩
  have htarget : (⟨false, .relation (some "api::blog.blog-post") (some .oneToMany)⟩ :
      Attribute).typeExpression = .ok "APIBlogPost[]" := by
    have hcase : Casing.caseName "blog-post" = .ok "BlogPost" :=
      caseName_eq_ok_iff.mpr (by decide)
    have hsegment : Attribute.secondSegment? "api::blog.blog-post" = some "blog-post" := by cbv
    simp only [Attribute.typeExpression, Attribute.kindType, Attribute.relationType,
      Option.getD_some, hsegment, Attribute.caseName, hcase]
    rfl
  have htype : (⟨false, .component (some "layout.hero") true⟩ : Attribute).typeExpression
      = .ok "ComponentsLayoutHeros[]" := by
    have h := Attribute.typeExpression_componentReference "layout" "hero" true
    rw [if_neg (by decide)] at h
    exact h.trans (congrArg Except.ok (by decide))
  have hschema : EntitySchema.ofText (schemaNamed "page") = .ok ⟨"page", []⟩ := by
    with_unfolding_all rfl
  have hcollected := collected_loneEntity hschema
    (caseName_eq_ok_iff.mpr (by decide) : Casing.caseName "page" = .ok "Page")
  obtain ⟨-, hpolicy⟩ := hproject (.loneEntity (schemaNamed "page")) .atRoot
  obtain ⟨es, cs, hes, hcs, hall, -⟩ := hpolicy .lastWins (.inr rfl)
  refine ⟨hname, hentity _ _ hname, htarget, hrelation _ _ _ htarget, htype,
    hreference _ _ _ htype, es, cs, hes, hcs, ?_⟩
  rw [← SchemaDirectories.collected, hcollected] at hall
  have hkept : [.new "APIPage" .entity] = es.kept ++ cs.kept :=
    congrArg Collision.Resolution.kept (Except.ok.inj hall)
  exact hkept.symm

end ContentTypes
