import ContentTypes.Proofs.Json.Gathering
import ContentTypes.Proofs.Json.Reading
import Mathlib
/-!
What can be read can be passed over, and leaves the same rest: strings, numerals, and names. So a
scalar that is passed over has a value or none, and a string of plain characters says what stands
between its quotes.
-/

namespace ContentTypes.Json

variable {s r : List Char}

/-! ### Strings and numerals -/

theorem passEscape_of_readLowSurrogate {high : Nat} {d : Char} {r : Before s.length}
    (h : readLowSurrogate high s = .ok (d, r)) :
    ∃ t, s = '\\' :: t ∧ ∃ hr, passEscape t = .ok ((), ⟨r.1, hr⟩) := by
  rw [readLowSurrogate.eq_def] at h
  split at h
  · cases h
  · cases h
  · next t =>
    obtain ⟨⟨low, a⟩, hhex, h⟩ := exists_of_bind_ok h
    dsimp only at h
    split_ifs at h
    simp only [Except.ok.injEq, Prod.mk.injEq] at h
    obtain ⟨-, rfl⟩ := h
    refine ⟨'u' :: t, rfl, Nat.lt_succ_of_lt a.2, ?_⟩
    rw [passEscape, if_pos rfl, hhex]
    rfl
  · cases h

/-- What follows a backslash is passed over as it is read, except that the two halves of a
surrogate pair are passed over one after the other. -/
theorem passEscape_of_readEscape {d : Char} {r : Before s.length}
    (h : readEscape s = .ok (d, r)) :
    passEscape s = .ok ((), r) ∨
      ∃ t ht hr, passEscape s = .ok ((), ⟨'\\' :: t, ht⟩) ∧ passEscape t = .ok ((), ⟨r.1, hr⟩) := by
  cases s with
  | nil => cases h
  | cons c s =>
    rw [readEscape] at h
    rw [passEscape]
    split_ifs at h ⊢ with hc
    · obtain ⟨⟨n, a⟩, hhex, h⟩ := exists_of_bind_ok h
      simp only [hhex] at h ⊢
      split_ifs at h with hlow hhigh
      · obtain ⟨⟨d', b⟩, hlow, h⟩ := exists_of_bind_ok h
        cases h
        obtain ⟨t, ht, hr, hpass⟩ := passEscape_of_readLowSurrogate hlow
        obtain ⟨a, ha⟩ := a
        subst ht
        exact .inr ⟨t, Nat.lt_succ_of_lt ha, hr, rfl, hpass⟩
      · cases h
        exact .inl rfl
    · split at h
      · cases h
        exact .inl (by simp [*])
      · cases h

theorem passChars_of_readChars {n : Nat} {acc cs : List Char} {h : s.length ≤ n} {r : Before n}
    (hread : readChars n acc s h = .ok (cs, r)) : passChars n s h = .ok r := by
  fun_induction readChars n acc s h with
  | case1 => cases hread
  | case2 acc s h =>
    cases hread
    rw [passChars, if_pos rfl]
  | case3 acc c s h hquote ih =>
    obtain ⟨⟨d, a⟩, hescape, hread⟩ := exists_of_bind_ok hread
    have hrest := ih d a hread
    rw [passChars, if_neg (by decide), if_pos rfl]
    rcases passEscape_of_readEscape hescape with hpass | ⟨t, ht, hr, hpass, hpass'⟩
    · rw [hpass]
      exact hrest
    · rw [hpass]
      change passChars n ('\\' :: t) _ = _
      rw [passChars, if_neg (by decide), if_pos rfl, hpass']
      exact hrest
  | case4 => cases hread
  | case5 acc c s h hquote hslash hcontrol _ ih =>
    rw [passChars, if_neg hquote, if_neg hslash, if_neg hcontrol]
    exact ih hread

theorem passText_of_readText {t : String} {r : Before s.length}
    (h : readText s = .ok (t, r)) : passText s = .ok ((), r) := by
  obtain ⟨⟨cs, a⟩, hchars, heq⟩ := exists_of_map_ok h
  cases heq
  rw [passText, passChars_of_readChars hchars]
  rfl

theorem passName_of_readName {name : String} {r : Before s.length}
    (h : readName s = .ok (name, r)) : passName s = .ok ((), r) := by
  rw [readName] at h
  rw [passName]
  split at h
  · cases h
  · split_ifs at h ⊢
    obtain ⟨⟨t, a⟩, htext, heq⟩ := exists_of_map_ok h
    cases heq
    rw [passText_of_readText htext]
    rfl

/-- What can be passed over and, if it can be read, leaves the same rest, comes to a value or to
none. -/
theorem exists_gives {α : Type} {p : List Char → Prop} (result : Except Fault (α × { r // p r }))
    {a : { r // p r }} (h : ∀ v b, result = .ok (v, b) → b = a) :
    ∃ x, Gives result a.1 x := by
  cases hresult : result with
  | error e => exact ⟨none, e, rfl⟩
  | ok v =>
    obtain ⟨v, b⟩ := v
    obtain rfl := h v b hresult
    exact ⟨some v, b.2, rfl⟩

theorem exists_named {a : Before s.length} (h : passName s = .ok ((), a)) :
    ∃ name, Named s name a.1 := by
  have hsame : ∀ n b, readName s = .ok (n, b) → b = a := by
    intro n b hread
    have hpass := (passName_of_readName hread).symm.trans h
    simpa using hpass
  obtain ⟨name, hname⟩ := exists_gives (readName s) hsame
  exact ⟨name, ⟨a.2, h⟩, hname⟩

theorem named_of_readName {name : String} {a : Before s.length}
    (h : readName s = .ok (name, a)) : Named s (some name) a.1 :=
  ⟨⟨a.2, passName_of_readName h⟩, a.2, h⟩

theorem passScalar_of_readScalar {c : Char} {v : Json} {r : UpTo s.length}
    (h : readScalar c s = .ok (v, r)) : passScalar c s = .ok r := by
  rw [readScalar.eq_def] at h
  split at h
  · obtain ⟨_, hword, heq⟩ := exists_of_map_ok h
    cases heq
    exact hword
  · obtain ⟨_, hword, heq⟩ := exists_of_map_ok h
    cases heq
    exact hword
  · obtain ⟨_, hword, heq⟩ := exists_of_map_ok h
    cases heq
    exact hword
  · obtain ⟨_, htext, heq⟩ := exists_of_map_ok h
    cases heq
    rw [passScalar, passText_of_readText htext]
    rfl
  · obtain ⟨⟨n, a⟩, hnumeral, h⟩ := exists_of_bind_ok h
    dsimp only at h
    split at h
    · cases h
      rw [passScalar, passNumeral, hnumeral]
      rfl
    · cases h
  · obtain ⟨⟨n, a⟩, hnumeral, h⟩ := exists_of_bind_ok h
    dsimp only at h
    split at h
    · cases h
      rw [passScalar, passNumeral, hnumeral]
      · rfl
      all_goals assumption
    · cases h

theorem exists_scalar {c : Char} {a : UpTo s.length} (hsquare : c ≠ '[') (hcurly : c ≠ '\x7b')
    (h : passScalar c s = .ok a) : ∃ value, Scalar c s value a.1 := by
  have hsame : ∀ v b, readScalar c s = .ok (v, b) → b = a := by
    intro v b hread
    have hpass := (passScalar_of_readScalar hread).symm.trans h
    simpa using hpass
  obtain ⟨value, hvalue⟩ := exists_gives (readScalar c s) hsame
  exact ⟨value, hsquare, hcurly, ⟨a.2, h⟩, hvalue⟩

/-! ### Plain strings -/

/-- A character that stands for itself in a string. -/
def IsPlain (c : Char) : Prop :=
  c ≠ '"' ∧ c ≠ '\\' ∧ 0x20 ≤ c.toNat

instance (c : Char) : Decidable (IsPlain c) :=
  inferInstanceAs (Decidable (_ ∧ _ ∧ _))

/-- A text between quotes, as it stands, and what follows it. -/
def between (name : String) (rest : List Char) : List Char :=
  '"' :: (name.toList ++ '"' :: rest)

theorem readChars_plain {n : Nat} {cs : List Char} (hplain : ∀ c ∈ cs, IsPlain c)
    (acc rest : List Char) (h : (cs ++ '"' :: rest).length ≤ n) :
    ∃ hr, readChars n acc (cs ++ '"' :: rest) h = .ok (acc.reverse ++ cs, ⟨rest, hr⟩) := by
  induction cs generalizing acc with
  | nil =>
    simp only [List.nil_append, List.length_cons] at h ⊢
    rw [readChars, if_pos rfl, List.append_nil]
    exact ⟨h, rfl⟩
  | cons c cs ih =>
    simp only [List.forall_mem_cons] at hplain
    obtain ⟨⟨hquote, hslash, hcontrol⟩, hplain⟩ := hplain
    simp only [List.cons_append] at h ⊢
    rw [readChars, if_neg hquote, if_neg hslash, if_neg (by omega)]
    obtain ⟨hr, hread⟩ := ih hplain (c :: acc) (Nat.le_of_succ_le h)
    exact ⟨hr, by simpa using hread⟩

variable {name : String} {rest : List Char}

theorem readText_plain (hplain : ∀ c ∈ name.toList, IsPlain c) (rest : List Char) :
    ∃ hr, readText (name.toList ++ '"' :: rest) = .ok (name, ⟨rest, hr⟩) := by
  obtain ⟨hr, hread⟩ := readChars_plain hplain [] rest (length_le_self _)
  refine ⟨hr, ?_⟩
  rw [readText, hread]
  simp [Except.map]

theorem named_between (hplain : ∀ c ∈ name.toList, IsPlain c) (rest : List Char) :
    Named (between name rest) (some name) rest := by
  obtain ⟨hr, hread⟩ := readText_plain hplain rest
  have hblank : skipBlank (between name rest) = '"' :: (name.toList ++ '"' :: rest) := rfl
  obtain ⟨ht, hhead⟩ := head?_eq_some hblank
  have hname : readName (between name rest) = .ok (name, ⟨rest, Nat.lt_trans hr ht⟩) := by
    rw [readName, hhead]
    simp only [if_true, hread]
    rfl
  exact named_of_readName hname

theorem spells_between (hplain : ∀ c ∈ name.toList, IsPlain c) (depth : Nat)
    (rest : List Char) :
    Spells depth (between name rest) (.scalar (some (.string name))) rest := by
  obtain ⟨hr, hread⟩ := readText_plain hplain rest
  have hscalar : readScalar '"' (name.toList ++ '"' :: rest)
      = .ok (.string name, ⟨rest, Nat.le_of_lt hr⟩) := by
    rw [readScalar, hread]
    rfl
  have h : Spells 0 (between name rest) (.scalar (some (.string name))) rest :=
    ⟨'"', _, rfl, by decide, by decide, ⟨_, passScalar_of_readScalar hscalar⟩, _, hscalar⟩
  exact h.mono (Nat.zero_le depth)

theorem spells_null (depth : Nat) (rest : List Char) :
    Spells depth ('n' :: 'u' :: 'l' :: 'l' :: rest) (.scalar (some .null)) rest := by
  have hscalar : readScalar 'n' ('u' :: 'l' :: 'l' :: rest)
      = .ok (.null, ⟨rest, Nat.le_add_right rest.length 3⟩) := rfl
  have h : Spells 0 ('n' :: 'u' :: 'l' :: 'l' :: rest) (.scalar (some .null)) rest :=
    ⟨'n', _, rfl, by decide, by decide, ⟨_, passScalar_of_readScalar hscalar⟩, _, hscalar⟩
  exact h.mono (Nat.zero_le depth)

theorem member_between (hplain : ∀ c ∈ name.toList, IsPlain c)
    {element : List Char → Outline → List Char → Prop} {o : Outline} (ho : element rest o r) :
    Member element (between name (':' :: rest)) (some name, o) r :=
  ⟨_, rest, named_between hplain _, rfl, ho⟩

end ContentTypes.Json
