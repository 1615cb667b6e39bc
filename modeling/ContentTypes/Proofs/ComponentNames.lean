import ContentTypes.Proofs.Casing.Spelling
import ContentTypes.Proofs.Generation
/-!
Component references. A component is declared under its plural stem, cased afterwards, while a
reference to it is cased first and then made plural. The two names agree exactly for stems with a
regular ending, whatever the group.
-/

namespace ContentTypes.Casing

def plural (l : List Char) : List Char :=
  if l.getLast? = some 's' then l else l ++ ['s']

theorem toList_pluralize (s : String) : (pluralize s).toList = plural s.toList := by
  rw [pluralize, plural]
  split_ifs
  · rfl
  · rw [String.toList_append]
    rfl

theorem getLast?_plural (l : List Char) : (plural l).getLast? = some 's' := by
  rw [plural]
  split_ifs with h
  · exact h
  · simp

theorem plural_concat_of_ne {c : Char} (hc : c ≠ 's') (l : List Char) :
    plural (l ++ [c]) = l ++ [c, 's'] := by
  simp [plural, hc]

theorem plural_append {l : List Char} (hl : l ≠ []) (g : List Char) :
    plural (g ++ l) = g ++ plural l := by
  rw [plural, plural, List.getLast?_append_of_ne_nil g hl]
  split_ifs
  · rfl
  · rw [List.append_assoc]

/-- The last letter of a stem decides, for `s` and capitals together with the one before it. -/
def EndsRegularly (stem : List Char) : Prop :=
  ∃ c ∈ stem.getLast?,
    c.isLower ∧ c ≠ 's' ∨ c = 's' ∧ (stem.dropLast.getLast?.any Char.isAlpha) ∨
      c.isUpper ∧ ¬ (stem.dropLast.getLast?.any Char.isUpper)

instance (stem : List Char) : Decidable (EndsRegularly stem) :=
  inferInstanceAs (Decidable (∃ c ∈ stem.getLast?, _))

theorem endsRegularly_concat (p : List Char) (c : Char) :
    EndsRegularly (p ++ [c]) ↔
      c.isLower ∧ c ≠ 's' ∨ c = 's' ∧ (p.getLast?.any Char.isAlpha) ∨
        c.isUpper ∧ ¬ (p.getLast?.any Char.isUpper) := by
  simp [EndsRegularly]

theorem lastClass_eq_capital_iff (p : List Char) :
    lastClass Letter.ofChar .other p = .capital ↔ p.getLast?.any Char.isUpper = true := by
  cases h : p.getLast? with
  | none => simp [lastClass, h]
  | some c => simp [lastClass, h, ofChar_eq_capital_iff]

theorem opens_small_lastClass (p : List Char) :
    opens Letter.ofChar (lastClass Letter.ofChar .other p) .small []
      = !(p.getLast?.any Char.isAlpha) := by
  cases h : p.getLast? with
  | none => simp [lastClass, h, opens]
  | some c =>
    have halpha := ofChar_isLetter_iff (c := c)
    cases hk : Letter.ofChar c <;> simp_all [lastClass, opens]

theorem opens_capital_lastClass (p : List Char) :
    opens Letter.ofChar (lastClass Letter.ofChar .other p) .capital []
      = !(p.getLast?.any Char.isUpper) := by
  rw [Bool.eq_iff_iff, Bool.not_eq_true', ← Bool.not_eq_true, ← lastClass_eq_capital_iff]
  simp [opens, digitEndsCapitals]

/-! ### The plural of a stem -/

/-- A text that does not end in `s` is no plural. -/
theorem ne_plural {l m : List Char} (hl : l.getLast? ≠ some 's') : l ≠ plural m := by
  intro h
  exact hl (h ▸ getLast?_plural m)

theorem spelling_concat_s (p : List Char) :
    ∃ t, spelling (p ++ ['s'])
      = t ++ [if p.getLast?.any Char.isAlpha then 's' else 'S'] := by
  obtain ⟨ms, hms⟩ :=
    exists_marks_concat Letter.ofChar (x := 's') (by decide) .other p
  refine ⟨ms.map written, ?_⟩
  rw [spelling, hms, show Letter.ofChar 's' = .small from rfl, opens_small_lastClass]
  cases p.getLast?.any Char.isAlpha <;> simp [written]

/-- Behind anything but a capital an `s` is spelled for itself. -/
theorem spelling_concat_concat_s {c : Char} (hc : c.isUpper = false) (p : List Char) :
    spelling (p ++ [c, 's'])
      = spelling (p ++ [c]) ++ [if c.isAlpha then 's' else 'S'] := by
  have hcap : Letter.ofChar c ≠ .capital := by
    rw [ne_eq, ofChar_eq_capital_iff, hc]
    decide
  have hopens := opens_small_lastClass [c]
  rw [spelling, spelling, marks_append_cons Letter.ofChar hcap, List.map_append]
  congr 1
  simp only [lastClass_cons, lastClass_nil, List.getLast?_singleton, Option.any_some] at hopens
  rw [marks, show Letter.ofChar 's' = .small from rfl, hopens]
  cases c.isAlpha <;> simp [marks, written]

/-- Behind a capital an `s` makes a word of the two, also where the capital ended an acronym. -/
theorem spelling_concat_capital {c : Char} (hc : c.isUpper = true) (p : List Char) :
    ∃ t, spelling (p ++ [c]) = t ++ [if p.getLast?.any Char.isUpper then c.toLower else c] ∧
      spelling (p ++ [c, 's']) = t ++ [c, 's'] := by
  have hcap : Letter.ofChar c = .capital := ofChar_eq_capital_iff.mpr hc
  have hlower : c.isLower = false := by
    rw [← Bool.not_eq_true, ← ofChar_eq_small_iff, hcap]
    decide
  have hupper : c.toUpper = c := Char.toUpper_eq_of_not_isLower (by simp [hlower])
  obtain ⟨ms, hms, hms'⟩ :=
    exists_marks_concat_small Letter.ofChar hcap (s := 's') (by decide) .other p
  refine ⟨ms.map written, ?_, ?_⟩
  · rw [spelling, hms, opens_capital_lastClass]
    cases p.getLast?.any Char.isUpper <;> simp [written, hupper]
  · rw [spelling, hms']
    simp [written, hupper]

theorem spelling_concat_small {c : Char} (hc : c.isLower = true) (p : List Char) :
    ∃ t d, spelling (p ++ [c]) = t ++ [d] ∧ (d = c ∨ d.isUpper = true) := by
  have hsmall : Letter.ofChar c = .small := ofChar_eq_small_iff.mpr hc
  obtain ⟨ms, hms⟩ := exists_marks_concat Letter.ofChar (x := c) (by simp [hsmall]) .other p
  rw [hsmall] at hms
  refine ⟨ms.map written, written (c, _), by rw [spelling, hms, List.map_append]; rfl, ?_⟩
  cases opens Letter.ofChar (lastClass Letter.ofChar .other p) .small [] with
  | true =>
    right
    simp [written, Char.isAlpha, hc]
  | false =>
    left
    apply Char.toLower_eq_of_not_isUpper
    rw [← ofChar_eq_capital_iff, hsmall]
    decide

/-- Behind the spelling `g` of a group, the plural of a stem is spelled as the plural of what the
stem is spelled as. -/
def PluralAgrees (g stem : List Char) : Prop :=
  g ++ spelling stem ≠ [] ∧ g ++ spelling (plural stem) = plural (g ++ spelling stem)

theorem not_pluralAgrees_of_getLast? {g stem : List Char} {t : List Char}
    (h : spelling (plural stem) = t ++ ['S']) : ¬ PluralAgrees g stem := by
  rintro ⟨-, heq⟩
  refine ne_plural ?_ heq
  simp [h]

theorem pluralAgrees_concat_s_iff (g p : List Char) :
    PluralAgrees g (p ++ ['s']) ↔ p.getLast?.any Char.isAlpha = true := by
  obtain ⟨t, ht⟩ := spelling_concat_s p
  have hplural : plural (p ++ ['s']) = p ++ ['s'] := by simp [plural]
  cases halpha : p.getLast?.any Char.isAlpha with
  | true =>
    refine iff_of_true ⟨by simp [ht], ?_⟩ rfl
    rw [hplural, ht]
    simp [plural, halpha]
  | false =>
    refine iff_of_false (not_pluralAgrees_of_getLast? (t := t) ?_) (by decide)
    rw [hplural, ht]
    simp [halpha]

theorem pluralAgrees_concat_small {c : Char} (hc : c.isLower = true) (hs : c ≠ 's')
    (g p : List Char) : PluralAgrees g (p ++ [c]) := by
  obtain ⟨t, d, ht, hd⟩ := spelling_concat_small hc p
  have hds : d ≠ 's' := by
    rintro rfl
    rcases hd with hd | hd
    · exact hs hd.symm
    · exact absurd hd (by decide)
  have hupper : c.isUpper = false := by
    rw [← Bool.not_eq_true, ← ofChar_eq_capital_iff, ofChar_eq_small_iff.mpr hc]
    decide
  refine ⟨by simp [ht], ?_⟩
  rw [plural_concat_of_ne hs, spelling_concat_concat_s hupper, ht, plural_append (by simp),
    plural_concat_of_ne hds]
  simp [Char.isAlpha, hc]

/-- After an acronym the reference has its last letter small and the declaration has it as a
capital. -/
theorem pluralAgrees_concat_capital_iff {c : Char} (hc : c.isUpper = true) (g p : List Char) :
    PluralAgrees g (p ++ [c]) ↔ p.getLast?.any Char.isUpper = false := by
  obtain ⟨t, ht, hts⟩ := spelling_concat_capital hc p
  have hs : c ≠ 's' := by
    rintro rfl
    exact absurd hc (by decide)
  cases hp : p.getLast?.any Char.isUpper with
  | false =>
    refine iff_of_true ⟨by simp [ht], ?_⟩ rfl
    rw [plural_concat_of_ne hs, hts, ht, hp, if_neg (by decide), plural_append (by simp),
      plural_concat_of_ne hs]
  | true =>
    refine iff_of_false ?_ (by decide)
    rintro ⟨-, heq⟩
    have hlower : c.toLower ≠ c := by
      intro hcc
      have h := Char.isUpper_toLower_eq_false c
      rw [hcc, hc] at h
      cases h
    rw [plural_concat_of_ne hs, hts, ht, hp, if_pos rfl, plural] at heq
    split_ifs at heq
    · simpa using congrArg List.length heq
    · simp [hlower.symm] at heq

theorem not_pluralAgrees_concat {c : Char} (hlower : c.isLower = false)
    (hupper : c.isUpper = false) (g p : List Char) : ¬ PluralAgrees g (p ++ [c]) := by
  have hs : c ≠ 's' := by
    rintro rfl
    exact absurd hlower (by decide)
  apply not_pluralAgrees_of_getLast? (t := spelling (p ++ [c]))
  rw [plural_concat_of_ne hs, spelling_concat_concat_s hupper]
  simp [Char.isAlpha, hlower, hupper]

theorem pluralAgrees_iff (g stem : List Char) : PluralAgrees g stem ↔ EndsRegularly stem := by
  rcases List.eq_nil_or_concat stem with rfl | ⟨p, c, rfl⟩
  · refine iff_of_false (not_pluralAgrees_of_getLast? (t := []) (by decide)) ?_
    simp [EndsRegularly]
  · rw [List.concat_eq_append, endsRegularly_concat]
    by_cases hs : c = 's'
    · subst hs
      rw [pluralAgrees_concat_s_iff]
      simp
    · by_cases hlower : c.isLower = true
      · exact iff_of_true (pluralAgrees_concat_small hlower hs g p) (.inl ⟨hlower, hs⟩)
      · by_cases hupper : c.isUpper = true
        · rw [pluralAgrees_concat_capital_iff hupper]
          simp [hs, hlower, hupper]
        · refine iff_of_false (not_pluralAgrees_concat ?_ ?_ g p) ?_ <;> simp_all

end ContentTypes.Casing

namespace ContentTypes
open Casing

/-- An attribute that holds one component of a file in a group, or many. -/
def Attribute.componentReference (group stem : String) (many : Bool) : Attribute :=
  ⟨false, .component (some (group ++ "." ++ stem)) many⟩

theorem Declaration.componentName_eq (group stem : String) :
    componentName group stem = .ok (Attribute.componentStem
      ++ String.ofList (spelling group.toList ++ spelling (plural stem.toList))) := by
  have hdot : Letter.ofChar '.' = .other := by decide
  have hstem : spelling "components".toList = Attribute.componentStem.toList := by decide
  have hspelling : spelling ("components." ++ group ++ "." ++ pluralize stem).toList
      = Attribute.componentStem.toList ++ (spelling group.toList
        ++ spelling (plural stem.toList)) := by
    calc spelling ("components." ++ group ++ "." ++ pluralize stem).toList
        = spelling ("components".toList
            ++ '.' :: (group.toList ++ '.' :: plural stem.toList)) := by
          simp [String.toList_append, toList_pluralize]
      _ = _ := by rw [spelling_append_separator hdot, spelling_append_separator hdot, hstem]
  rw [componentName, caseName_eq_ok_iff, hspelling]
  exact ⟨by simp [Attribute.componentStem], by simp [String.toList_append]⟩

theorem Attribute.typeExpression_componentReference (group stem : String) (many : Bool) :
    (componentReference group stem many).typeExpression =
      if spelling group.toList ++ spelling stem.toList = [] then
        .error (.naming (.noSegments (group ++ "." ++ stem)))
      else .ok (componentStem
        ++ String.ofList (plural (spelling group.toList ++ spelling stem.toList))
        ++ listMark many) := by
  have hspelling : spelling (group ++ "." ++ stem).toList
      = spelling group.toList ++ spelling stem.toList := by
    rw [← spelling_append_separator (c := '.') (by decide)]
    simp [String.toList_append]
  have hplural (l : List Char) : pluralize (String.ofList l) = String.ofList (plural l) := by
    rw [← String.toList_inj, toList_pluralize, String.toList_ofList, String.toList_ofList]
  simp only [componentReference, typeExpression, kindType, componentType, Attribute.caseName,
    caseName_eq, hspelling]
  by_cases h : spelling group.toList ++ spelling stem.toList = []
  · rw [if_pos h, if_pos h]
    rfl
  · rw [if_neg h, if_neg h, ← hplural]
    rfl

/-- Where the plurals agree, a reference and the declaration have one name up to the mark of a
list. -/
theorem exists_name_of_endsRegularly {group stem : String} (h : EndsRegularly stem.toList) :
    ∃ name, Declaration.componentName group stem = .ok name ∧
      ∀ many, (Attribute.componentReference group stem many).typeExpression
        = .ok (name ++ Attribute.listMark many) := by
  obtain ⟨hne, heq⟩ := (pluralAgrees_iff (spelling group.toList) stem.toList).mpr h
  refine ⟨_, Declaration.componentName_eq group stem, fun many => ?_⟩
  rw [Attribute.typeExpression_componentReference, if_neg hne, heq]

theorem endsRegularly_of_name_eq {group stem name : String}
    (hd : Declaration.componentName group stem = .ok name)
    (hr : (Attribute.componentReference group stem false).typeExpression = .ok name) :
    EndsRegularly stem.toList := by
  rw [Attribute.typeExpression_componentReference] at hr
  split_ifs at hr with hne
  rw [Declaration.componentName_eq] at hd
  have heq := (Except.ok.inj hd).trans (Except.ok.inj hr).symm
  apply (pluralAgrees_iff (spelling group.toList) stem.toList).mp
  exact ⟨hne, by simpa [Attribute.listMark, ← String.toList_inj] using heq⟩

/-- A reference and the declaration of its file have the same name exactly for a stem with a
regular ending; the group does not matter. -/
theorem reference_eq_componentName_iff (group stem : String) :
    (∃ name, Declaration.componentName group stem = .ok name ∧
      (Attribute.componentReference group stem false).typeExpression = .ok name) ↔
        EndsRegularly stem.toList := by
  constructor
  · rintro ⟨name, hd, hr⟩
    exact endsRegularly_of_name_eq hd hr
  · intro h
    obtain ⟨name, hd, hr⟩ := exists_name_of_endsRegularly h
    exact ⟨name, hd, by simpa [Attribute.listMark] using hr false⟩

/-- References of both kinds reach the declaration that is collected from a component file exactly
if its stem has a regular ending. -/
theorem references_reach_declared_iff (group stem : String) :
    (∃ name, Declaration.componentName group stem = .ok name ∧
      (∀ fs path d, Walk.collectComponent fs ⟨group, stem, path⟩ = .ok d → d.name = name) ∧
      ∀ many, (Attribute.componentReference group stem many).typeExpression
        = .ok (name ++ Attribute.listMark many)) ↔ EndsRegularly stem.toList := by
  constructor
  · rintro ⟨name, hd, -, hr⟩
    exact endsRegularly_of_name_eq hd (by simpa [Attribute.listMark] using hr false)
  · intro h
    obtain ⟨name, hd, hr⟩ := exists_name_of_endsRegularly h
    refine ⟨name, hd, ?_, hr⟩
    intro fs path d hcollect
    have hname := Walk.name_of_collectComponent hcollect
    rw [hd] at hname
    exact (Except.ok.inj hname).symm

/-- A digit at the end of a stem leaves the reference dangling. -/
theorem reference_hero2_dangles :
    Discovery.jsonStem? "hero2.json" = some "hero2" ∧
      Declaration.componentName "layout" "hero2" = .ok "ComponentsLayoutHero2S" ∧
      (Attribute.componentReference "layout" "hero2" false).typeExpression
        = .ok "ComponentsLayoutHero2s" := by
  refine ⟨by decide, ?_, ?_⟩
  · rw [Declaration.componentName_eq]
    exact congrArg Except.ok (by decide)
  · rw [Attribute.typeExpression_componentReference, if_neg (by decide)]
    exact congrArg Except.ok (by decide)

end ContentTypes
