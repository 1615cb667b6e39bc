import ContentTypes.Proofs.Json.Passing
import Mathlib
/-!
Every text that can be read, or only passed over, has an outline. A pass goes from value to value
and from bracket to bracket, and every reader is made of readers and passes.
-/

namespace ContentTypes.Json

variable {s r : List Char}

/-! ### Values that are passed over -/

theorem skipBlank_of_head? {c : Char} {a : Before s.length} (h : head? s = some (c, a)) :
    skipBlank s = c :: a.1 := by
  rw [head?] at h
  split at h
  · cases h
  · next hs =>
    cases h
    exact hs

theorem colon_of_readChar {c : Char} {a : Before s.length} (h : readChar c s = .ok ((), a)) :
    skipBlank s = c :: a.1 := by
  rw [readChar] at h
  split at h
  · cases h
  · next hs =>
    split_ifs at h with hc
    cases h
    subst hc
    exact skipBlank_of_head? hs

/-- The name of a field and its colon, in front of a value that starts at `a`. -/
theorem exists_member_of_passNameColon {a : Before s.length}
    (h : passNameColon s = .ok ((), a)) {element : List Char → Outline → List Char → Prop}
    {o : Outline} (ho : element a.1 o r) : ∃ f, Member element s f r := by
  obtain ⟨⟨_, b⟩, hpass, h⟩ := exists_of_bind_ok h
  obtain ⟨⟨_, b'⟩, hcolon, h⟩ := exists_of_bind_ok h
  cases h
  obtain ⟨name, hname⟩ := exists_named hpass
  exact ⟨(name, o), b.1, b'.1, hname, colon_of_readChar hcolon, ho⟩

theorem Spells.exists_head {depth : Nat} {o : Outline} (h : Spells depth s o r) :
    ∃ c t, skipBlank s = c :: t := by
  cases o with
  | scalar value =>
    obtain ⟨c, t, hc, -⟩ := h.exists_scalar
    exact ⟨c, t, hc⟩
  | array items =>
    obtain ⟨_, t, hopen, -⟩ := h.exists_array
    exact ⟨_, t, hopen⟩
  | object fields =>
    obtain ⟨_, t, hopen, -⟩ := h.exists_object
    exact ⟨_, t, hopen⟩

theorem Member.exists_quote {element : List Char → Outline → List Char → Prop}
    {f : Outline.Field} (h : Member element s f r) : ∃ t, skipBlank s = '"' :: t := by
  obtain ⟨_, _, hname, -, -⟩ := h
  obtain ⟨_, hpass⟩ := hname.pass
  rw [passName] at hpass
  split at hpass
  · cases hpass
  · next hhead =>
    split_ifs at hpass with hquote
    subst hquote
    exact ⟨_, skipBlank_of_head? hhead⟩

/-- The fields of an object, from the first to the closing bracket. -/
theorem Bracketed.ofMember {element : List Char → Outline → List Char → Prop}
    {f : Outline.Field} {fs : List Outline.Field} {u : List Char} (hf : Member element s f u)
    (hrest : Series (Member element) '\x7d' u fs r) :
    Bracketed (Member element) '\x7d' s (f :: fs) r := by
  obtain ⟨t, hquote⟩ := hf.exists_quote
  exact .items hquote (by decide) hf hrest

variable {n : Nat}

/-- A pass over a value has met one, of some depth, and goes on behind it. -/
def MeetsValue (n : Nat) (s : List Char) : Prop :=
  ∀ opened hs a, passOver n opened ⟨s, hs⟩ = .ok a → ∃ depth o u hu,
    u.length < s.length ∧ Spells depth s o u ∧ passRest n opened ⟨u, hu⟩ = .ok a

/-- A pass over the rest of an array has met its further items. -/
def MeetsItems (n : Nat) (s : List Char) : Prop :=
  ∀ opened hs a, passRest n (.square :: opened) ⟨s, hs⟩ = .ok a → ∃ depth xs u hu,
    u.length < s.length ∧ Series (Spells depth) ']' s xs u ∧ passRest n opened ⟨u, hu⟩ = .ok a

/-- A pass over the rest of an object has met its further fields. -/
def MeetsFields (n : Nat) (s : List Char) : Prop :=
  ∀ opened hs a, passRest n (.curly :: opened) ⟨s, hs⟩ = .ok a → ∃ depth fs u hu,
    u.length < s.length ∧ Series (Member (Spells depth)) '\x7d' s fs u ∧
      passRest n opened ⟨u, hu⟩ = .ok a

theorem meetsItems_of_shorter (hvalue : ∀ t, t.length < s.length → MeetsValue n t)
    (hitems : ∀ t, t.length < s.length → MeetsItems n t) : MeetsItems n s := by
  intro opened hs a h
  rw [passRest.eq_def] at h
  cases hhead : head? s with
  | none => simp [hhead] at h
  | some head =>
    obtain ⟨c, b⟩ := head
    have hblank := skipBlank_of_head? hhead
    simp only [hhead] at h
    split at h
    · next heq => cases heq
    · next heq _ =>
      cases heq
      exact ⟨0, [], b.1, Nat.lt_trans b.2 hs, b.2, .stop hblank, h⟩
    · next heq _ =>
      cases heq
      obtain ⟨d, x, u, hu, hlt, hx, hrest⟩ := hvalue b.1 b.2 _ _ _ h
      obtain ⟨d', xs, v, hv, hlt', hxs, hrest⟩ := hitems u (by omega) _ _ _ hrest
      exact ⟨max d d', x :: xs, v, hv, by omega,
        .more hblank (hx.mono (by omega)) (hxs.deepen (by omega)), hrest⟩
    · next hb => cases hb
    · next hb => cases hb
    · cases h

theorem meetsFields_of_shorter (hvalue : ∀ t, t.length < s.length → MeetsValue n t)
    (hfields : ∀ t, t.length < s.length → MeetsFields n t) : MeetsFields n s := by
  intro opened hs a h
  rw [passRest.eq_def] at h
  cases hhead : head? s with
  | none => simp [hhead] at h
  | some head =>
    obtain ⟨c, b⟩ := head
    have hb := b.2
    have hblank := skipBlank_of_head? hhead
    simp only [hhead] at h
    split at h
    · next heq => cases heq
    · next hb => cases hb
    · next hb => cases hb
    · next heq _ =>
      cases heq
      exact ⟨0, [], b.1, Nat.lt_trans b.2 hs, b.2, .stop hblank, h⟩
    · next heq _ =>
      cases heq
      obtain ⟨⟨_, b'⟩, hname, h⟩ := exists_of_bind_ok h
      have hb' := b'.2
      obtain ⟨d, x, u, hu, hlt, hx, hrest⟩ := hvalue b'.1 (by omega) _ _ _ h
      obtain ⟨d', fs, v, hv, hlt', hfs, hrest⟩ := hfields u (by omega) _ _ _ hrest
      have hx' : Spells (max d d') b'.1 x u := hx.mono (by omega)
      obtain ⟨f, hf⟩ := exists_member_of_passNameColon hname hx'
      exact ⟨max d d', f :: fs, v, hv, by omega, .more hblank hf (hfs.deepenFields (by omega)),
        hrest⟩
    · cases h

theorem meetsValue_of_shorter (hvalue : ∀ t, t.length < s.length → MeetsValue n t)
    (hitems : ∀ t, t.length < s.length → MeetsItems n t)
    (hfields : ∀ t, t.length < s.length → MeetsFields n t) : MeetsValue n s := by
  intro opened hs a h
  rw [passOver.eq_def] at h
  cases hhead : head? s with
  | none => simp [hhead] at h
  | some head =>
    obtain ⟨c, b⟩ := head
    have hb := b.2
    have hblank := skipBlank_of_head? hhead
    simp only [hhead] at h
    split_ifs at h with hsquare hcurly
    · subst hsquare
      split at h
      · next b' hclose =>
        have hb' := b'.2
        exact ⟨1, .array [], b'.1, by omega, by omega,
          ⟨b.1, hblank, .empty (skipBlank_of_head? hclose)⟩, h⟩
      · next hopen =>
        obtain ⟨d, x, u, hu, hlt, hx, hrest⟩ := hvalue b.1 b.2 _ _ _ h
        obtain ⟨d', xs, v, hv, hlt', hxs, hrest⟩ := hitems u (by omega) _ _ _ hrest
        obtain ⟨c, t, hc⟩ := hx.exists_head
        have hne : c ≠ ']' := by
          rintro rfl
          obtain ⟨ht, hclose⟩ := head?_eq_some hc
          exact hopen _ hclose
        have hxs' : Series (Spells (max d d')) ']' u xs v := hxs.deepen (by omega)
        exact ⟨max d d' + 1, .array (x :: xs), v, hv, by omega,
          ⟨b.1, hblank, .items hc hne (hx.mono (by omega)) hxs'⟩, hrest⟩
    · subst hcurly
      split at h
      · next b' hclose =>
        have hb' := b'.2
        exact ⟨1, .object [], b'.1, by omega, by omega,
          ⟨b.1, hblank, .empty (skipBlank_of_head? hclose)⟩, h⟩
      · obtain ⟨⟨_, b'⟩, hname, h⟩ := exists_of_bind_ok h
        have hb' := b'.2
        obtain ⟨d, x, u, hu, hlt, hx, hrest⟩ := hvalue b'.1 (by omega) _ _ _ h
        obtain ⟨d', fs, v, hv, hlt', hfs, hrest⟩ := hfields u (by omega) _ _ _ hrest
        have hx' : Spells (max d d') b'.1 x u := hx.mono (by omega)
        obtain ⟨f, hf⟩ := exists_member_of_passNameColon hname hx'
        exact ⟨max d d' + 1, .object (f :: fs), v, hv, by omega,
          ⟨b.1, hblank, .ofMember hf (hfs.deepenFields (by omega))⟩, hrest⟩
    · obtain ⟨b', hpass, h⟩ := exists_of_bind_ok h
      have hb' := b'.2
      obtain ⟨value, hscalar⟩ := exists_scalar hsquare hcurly hpass
      exact ⟨0, .scalar value, b'.1, by omega, by omega, ⟨c, b.1, hblank, hscalar⟩, h⟩

/-- Every pass goes from value to value, by induction on what is left of the text. -/
theorem meets (n : Nat) (s : List Char) :
    MeetsValue n s ∧ MeetsItems n s ∧ MeetsFields n s := by
  induction hlen : s.length using Nat.strong_induction_on generalizing s with
  | _ k ih =>
    subst hlen
    have hvalue := fun t (ht : t.length < s.length) => (ih _ ht t rfl).1
    have hitems := fun t (ht : t.length < s.length) => (ih _ ht t rfl).2.1
    have hfields := fun t (ht : t.length < s.length) => (ih _ ht t rfl).2.2
    exact ⟨meetsValue_of_shorter hvalue hitems hfields, meetsItems_of_shorter hvalue hitems,
      meetsFields_of_shorter hvalue hfields⟩

/-! ### Readers -/

/-- What a reader takes, when it succeeds, says something. -/
def Finds {α : Type} (read : Reader α) : Prop :=
  ∀ s v a, read s = .ok (v, a) → ∃ depth o, Spells depth s o a.1

/-- So does what a reader of fields takes, behind a colon. -/
def FindsField {σ : Type} (field : FieldReader σ) : Prop :=
  ∀ name st s st' a, field name st s = .ok (st', a) →
    ∃ depth t o, skipBlank s = ':' :: t ∧ Spells depth t o a.1

theorem finds_passValue : Finds passValue := by
  intro s v a h
  obtain ⟨b, hpass, heq⟩ := exists_of_map_ok h
  cases heq
  obtain ⟨depth, o, u, hu, -, ho, hrest⟩ := (meets s.length s).1 [] _ _ hpass
  rw [passRest] at hrest
  cases hrest
  exact ⟨depth, o, ho⟩

theorem Finds.afterColon {α : Type} {value : Reader α} (hvalue : Finds value) {v : α}
    {a : Before s.length} (h : afterColon value s = .ok (v, a)) :
    ∃ depth t o, skipBlank s = ':' :: t ∧ Spells depth t o a.1 := by
  obtain ⟨⟨_, b⟩, hcolon, h⟩ := exists_of_bind_ok h
  obtain ⟨⟨w, b'⟩, hread, h⟩ := exists_of_bind_ok h
  cases h
  obtain ⟨depth, o, ho⟩ := hvalue _ _ _ hread
  exact ⟨depth, b.1, o, colon_of_readChar hcolon, ho⟩

section
variable {α : Type} {item : Reader α} {vs : List α}

theorem Finds.readMoreItems (hitem : Finds item) {n : Nat} {acc : List α} {hs : s.length < n}
    {a : Before n} (h : readMoreItems item n acc s hs = .ok (vs, a)) :
    ∃ depth xs, Series (Spells depth) ']' s xs a.1 := by
  fun_induction Json.readMoreItems item n acc s hs with
  | case1 => cases h
  | case2 acc s hs r hhead =>
    cases h
    exact ⟨0, [], .stop (skipBlank_of_head? hhead)⟩
  | case3 acc s hs r hhead _ ih =>
    obtain ⟨⟨v, b⟩, hread, h⟩ := exists_of_bind_ok h
    obtain ⟨d, o, ho⟩ := hitem _ _ _ hread
    obtain ⟨d', xs, hxs⟩ := ih v b h
    exact ⟨max d d', o :: xs, .more (skipBlank_of_head? hhead) (ho.mono (by omega))
      (hxs.deepen (by omega))⟩
  | case4 => cases h

theorem Finds.readItems (hitem : Finds item) {a : Before s.length}
    (h : readItems item s = .ok (vs, a)) :
    ∃ depth xs, Bracketed (Spells depth) ']' s xs a.1 := by
  rw [Json.readItems] at h
  split at h
  · cases h
  · next c r hhead =>
    split_ifs at h with hc
    · cases h
      subst hc
      exact ⟨0, [], .empty (skipBlank_of_head? hhead)⟩
    · obtain ⟨⟨v, b⟩, hread, h⟩ := exists_of_bind_ok h
      obtain ⟨d, o, ho⟩ := hitem _ _ _ hread
      obtain ⟨d', xs, hxs⟩ := hitem.readMoreItems h
      exact ⟨max d d', o :: xs, .items (skipBlank_of_head? hhead) hc (ho.mono (by omega))
        (hxs.deepen (by omega))⟩

end

section
variable {σ : Type} {field : FieldReader σ} {st st' : σ}

theorem FindsField.exists_member (hfield : FindsField field) {name : String}
    {a : Before s.length} {b : Before a.1.length} (hname : readName s = .ok (name, a))
    (h : field name st a.1 = .ok (st', b)) : ∃ depth f, Member (Spells depth) s f b.1 := by
  obtain ⟨depth, t, o, hcolon, ho⟩ := hfield _ _ _ _ _ h
  exact ⟨depth, (some name, o), a.1, t, named_of_readName hname, hcolon, ho⟩

theorem FindsField.readMoreFields (hfield : FindsField field) {n : Nat} {hs : s.length < n}
    {a : Before n} (h : readMoreFields field n st s hs = .ok (st', a)) :
    ∃ depth fs, Series (Member (Spells depth)) '\x7d' s fs a.1 := by
  fun_induction Json.readMoreFields field n st s hs with
  | case1 => cases h
  | case2 st s hs r hhead =>
    cases h
    exact ⟨0, [], .stop (skipBlank_of_head? hhead)⟩
  | case3 st s hs r hhead _ ih =>
    obtain ⟨⟨name, b⟩, hname, h⟩ := exists_of_bind_ok h
    obtain ⟨⟨st₁, b'⟩, hread, h⟩ := exists_of_bind_ok h
    obtain ⟨d, f, hf⟩ := hfield.exists_member hname hread
    obtain ⟨d', fs, hfs⟩ := ih b st₁ b' h
    have hf' : Member (Spells (max d d')) r.1 f b'.1 := hf.deepen (by omega)
    exact ⟨max d d', f :: fs, .more (skipBlank_of_head? hhead) hf' (hfs.deepenFields (by omega))⟩
  | case4 => cases h

theorem FindsField.readFields (hfield : FindsField field) {a : Before s.length}
    (h : readFields field st s = .ok (st', a)) :
    ∃ depth fs, Bracketed (Member (Spells depth)) '\x7d' s fs a.1 := by
  rw [Json.readFields] at h
  split at h
  · cases h
  · next c r hhead =>
    split_ifs at h with hc
    · cases h
      subst hc
      exact ⟨0, [], .empty (skipBlank_of_head? hhead)⟩
    · obtain ⟨⟨name, b⟩, hname, h⟩ := exists_of_bind_ok h
      obtain ⟨⟨st₁, b'⟩, hread, h⟩ := exists_of_bind_ok h
      obtain ⟨d, f, hf⟩ := hfield.exists_member hname hread
      obtain ⟨d', fs, hfs⟩ := hfield.readMoreFields h
      exact ⟨max d d', f :: fs, .ofMember (hf.deepen (by omega)) (hfs.deepenFields (by omega))⟩

end

theorem findsField_keepField {α : Type} {value : Reader α} (hvalue : Finds value) :
    FindsField (keepField value) := by
  intro name st s st' a h
  obtain ⟨⟨v, b⟩, hread, heq⟩ := exists_of_map_ok h
  cases heq
  exact hvalue.afterColon hread

theorem finds_readValue (depth : Nat) : Finds (readValue depth) := by
  induction depth with
  | zero =>
    intro s v a h
    rw [readValue] at h
    split at h
    · cases h
    · next c r hhead =>
      simp only at h
      split_ifs at h with hc
      obtain ⟨⟨w, b⟩, hread, heq⟩ := exists_of_map_ok h
      cases heq
      rw [not_or] at hc
      obtain ⟨value, hscalar⟩ := exists_scalar hc.1 hc.2 (passScalar_of_readScalar hread)
      exact ⟨0, .scalar value, c, r.1, skipBlank_of_head? hhead, hscalar⟩
  | succ depth ih =>
    intro s v a h
    rw [readValue] at h
    split at h
    · cases h
    · next c r hhead =>
      have hblank := skipBlank_of_head? hhead
      simp only at h
      split_ifs at h with hsquare hcurly
      · subst hsquare
        obtain ⟨⟨vs, b⟩, hread, heq⟩ := exists_of_map_ok h
        cases heq
        obtain ⟨d, xs, hxs⟩ := ih.readItems hread
        exact ⟨d + 1, .array xs, r.1, hblank, hxs⟩
      · subst hcurly
        obtain ⟨⟨fs, b⟩, hread, heq⟩ := exists_of_map_ok h
        cases heq
        obtain ⟨d, fs, hfs⟩ := (findsField_keepField ih).readFields hread
        exact ⟨d + 1, .object fs, r.1, hblank, hfs⟩
      · obtain ⟨⟨w, b⟩, hread, heq⟩ := exists_of_map_ok h
        cases heq
        obtain ⟨value, hscalar⟩ := exists_scalar hsquare hcurly (passScalar_of_readScalar hread)
        exact ⟨0, .scalar value, c, r.1, hblank, hscalar⟩

end ContentTypes.Json
