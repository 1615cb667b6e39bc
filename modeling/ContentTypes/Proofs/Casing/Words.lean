import ContentTypes.Proofs.Casing.Separators
import Mathlib
/-!
Spellings of words. The same words with any separators between them, in camel case, in Pascal case
or in capitals give one name: the capitalised words one after the other.
-/

namespace ContentTypes.Casing

/-- One or more small letters, and any digits behind them. -/
structure Word where
  first : Char
  letters : List Char
  digits : List Char
  isLower_first : first.isLower
  isLower_letters : ∀ c ∈ letters, c.isLower
  isDigit_digits : ∀ c ∈ digits, c.isDigit

/-- What stands between two words: at least one symbol, and neither letters nor digits of ASCII. -/
structure Gap where
  text : List Char
  ne_nil : text ≠ []
  separates : ∀ c ∈ text, ¬ c.isAlphanum

namespace Word

def small (w : Word) : List Char :=
  w.first :: (w.letters ++ w.digits)

def capitalised (w : Word) : List Char :=
  w.first.toUpper :: (w.letters ++ w.digits)

def capitals (w : Word) : List Char :=
  w.small.map Char.toUpper

end Word

/-- The words in one spelling, each but the first with the gap in front of it. -/
def joined (spell : Word → List Char) (first : Word) (rest : List (Gap × Word)) : List Char :=
  spell first ++ rest.flatMap fun p => p.1.text ++ spell p.2

/-- The capitalised words one after the other. -/
def pascal (words : List Word) : List Char :=
  words.flatMap Word.capitalised

theorem pascal_cons (w : Word) (words : List Word) :
    pascal (w :: words) = w.capitalised ++ pascal words :=
  List.flatMap_cons

/-! ### Gaps -/

section Gaps

variable {m : List Char}

theorem spelling_append_gap (hm : ∀ c ∈ m, ¬ c.isAlphanum) (hne : m ≠ []) (a b : List Char) :
    spelling (a ++ (m ++ b)) = spelling a ++ spelling b := by
  have hother : ∀ c ∈ m, Letter.ofChar c = .other := fun c hc => ofChar_eq_other (hm c hc)
  rw [← flatMap_capitalise_segments, segments_append_separators Letter.ofChar hother hne,
    List.flatMap_append, flatMap_capitalise_segments, flatMap_capitalise_segments]

/-- In front of a text and behind it separators change nothing. -/
theorem spelling_margins {front back : List Char} (hfront : ∀ c ∈ front, ¬ c.isAlphanum)
    (hback : ∀ c ∈ back, ¬ c.isAlphanum) (l : List Char) :
    spelling (front ++ l ++ back) = spelling l := by
  have hnil : spelling [] = [] := rfl
  have hend : spelling (front ++ l ++ back) = spelling (front ++ l) := by
    by_cases hne : back = []
    · rw [hne, List.append_nil]
    · have h := spelling_append_gap hback hne (front ++ l) []
      rwa [List.append_nil, hnil, List.append_nil] at h
  have hstart : spelling (front ++ l) = spelling l := by
    by_cases hne : front = []
    · rw [hne, List.nil_append]
    · have h := spelling_append_gap hfront hne [] l
      rwa [List.nil_append, hnil, List.nil_append] at h
  rw [hend, hstart]

theorem spelling_joined (spell : Word → List Char) (first : Word) (rest : List (Gap × Word)) :
    spelling (joined spell first rest)
      = (first :: rest.map Prod.snd).flatMap fun w => spelling (spell w) := by
  induction rest generalizing first with
  | nil => simp [joined]
  | cons p rest ih =>
    have hsplit : joined spell first (p :: rest)
        = spell first ++ (p.1.text ++ joined spell p.2 rest) := by
      simp [joined]
    rw [hsplit, spelling_append_gap p.1.separates p.1.ne_nil, ih, List.map_cons,
      List.flatMap_cons (x := first)]

end Gaps

/-! ### One word -/

/-- A word is a segment of its own at the end of a text and in front of a capital, whether it starts
with a capital itself or not. -/
theorem spelling_word_append {a : Char} {s d r : List Char}
    (ha : a.isLower ∨ a.isUpper ∧ s ≠ []) (hs : ∀ c ∈ s, c.isLower) (hd : ∀ c ∈ d, c.isDigit)
    (hr : ∀ c ∈ r.head?, c.isUpper) :
    spelling (a :: (s ++ d) ++ r) = capitalise (a :: (s ++ d)) ++ spelling r := by
  have ha' : Letter.ofChar a = .small ∨ Letter.ofChar a = .capital ∧ s ≠ [] := by
    rwa [ofChar_eq_small_iff, ofChar_eq_capital_iff]
  have hs' : ∀ c ∈ s, Letter.ofChar c = .small := fun c hc => ofChar_eq_small_iff.mpr (hs c hc)
  have hd' : ∀ c ∈ d, Letter.ofChar c = .digit := fun c hc => ofChar_eq_digit_iff.mpr (hd c hc)
  have hr' : r.head?.map Letter.ofChar = none ∨ r.head?.map Letter.ofChar = some .capital := by
    cases h : r.head? with
    | none => exact .inl rfl
    | some c =>
      right
      rw [Option.map_some, ofChar_eq_capital_iff.mpr (hr c h)]
  have hdigit : (r.head?.map Letter.ofChar) ≠ some .digit := by
    rcases hr' with h | h <;> simp [h]
  have hsmall : (r.head?.map Letter.ofChar) ≠ some .small := by
    rcases hr' with h | h <;> simp [h]
  have hmarks := marks_append_of_word Letter.ofChar ha' hs' hd' hdigit fun _ => hsmall
  have hsplit : a :: (s ++ d) ++ r = a :: (s ++ (d ++ r)) := by simp
  rw [spelling, hsplit, hmarks, List.map_append, map_written_marked, spelling]

/-- Capitals alone are one segment. -/
theorem spelling_of_capitals {g : List Char} (hg : ∀ c ∈ g, c.isUpper) :
    spelling g = capitalise g := by
  by_cases hne : g = []
  · rw [hne]
    rfl
  · have hg' : ∀ c ∈ g, Letter.ofChar c = .capital :=
      fun c hc => ofChar_eq_capital_iff.mpr (hg c hc)
    have hmarks := marks_append_of_acronym Letter.ofChar hne hg' (r := []) rfl
    rw [List.append_nil, marks, List.append_nil] at hmarks
    rw [spelling, hmarks, map_written_marked]

theorem toLower_of_isLower_or_isDigit {c : Char} (h : c.isLower ∨ c.isDigit) : c.toLower = c := by
  apply Char.toLower_eq_of_not_isUpper
  rw [isUpper_iff]
  rw [isLower_iff, isDigit_iff] at h
  omega

theorem isUpper_toUpper_of_isLower {c : Char} (h : c.isLower) : c.toUpper.isUpper := by
  rw [Char.isUpper_toUpper_eq_isAlpha, Char.isAlpha, h, Bool.or_true]

namespace Word

variable (w : Word)

theorem map_toLower_tail : (w.letters ++ w.digits).map Char.toLower = w.letters ++ w.digits := by
  have hsame : ∀ c ∈ w.letters ++ w.digits, c.toLower = id c := by
    intro c hc
    rcases List.mem_append.mp hc with hc | hc
    · exact toLower_of_isLower_or_isDigit (.inl (w.isLower_letters c hc))
    · exact toLower_of_isLower_or_isDigit (.inr (w.isDigit_digits c hc))
  rw [List.map_congr_left hsame, List.map_id]

theorem capitalise_small : capitalise w.small = w.capitalised := by
  rw [small, capitalise, map_toLower_tail, capitalised]

theorem capitalise_capitalised : capitalise w.capitalised = w.capitalised := by
  rw [capitalised, capitalise, map_toLower_tail, Char.toUpper_toUpper_eq_toUpper]

theorem spelling_small_append {r : List Char} (hr : ∀ c ∈ r.head?, c.isUpper) :
    spelling (w.small ++ r) = w.capitalised ++ spelling r := by
  rw [← capitalise_small, small]
  exact spelling_word_append (.inl w.isLower_first) w.isLower_letters w.isDigit_digits hr

theorem spelling_small : spelling w.small = w.capitalised := by
  have hnil : spelling [] = [] := rfl
  have h := w.spelling_small_append (r := []) (by simp)
  rwa [List.append_nil, hnil, List.append_nil] at h

/-- A capital alone would run on with the next one, so a second letter is needed. -/
theorem spelling_capitalised_append (h : w.letters ≠ []) {r : List Char}
    (hr : ∀ c ∈ r.head?, c.isUpper) :
    spelling (w.capitalised ++ r) = w.capitalised ++ spelling r := by
  have hfirst : w.first.toUpper.isUpper := isUpper_toUpper_of_isLower w.isLower_first
  conv_rhs => rw [← capitalise_capitalised]
  rw [capitalised]
  exact spelling_word_append (.inr ⟨hfirst, h⟩) w.isLower_letters w.isDigit_digits hr

theorem spelling_capitals (h : w.digits = []) : spelling w.capitals = w.capitalised := by
  have hsmall : ∀ c ∈ w.small, c.isLower := by
    intro c hc
    rw [small, h, List.append_nil] at hc
    rcases List.mem_cons.mp hc with rfl | hc
    · exact w.isLower_first
    · exact w.isLower_letters c hc
  have hcapitals : ∀ c ∈ w.capitals, c.isUpper := by
    intro c hc
    obtain ⟨d, hd, rfl⟩ := List.mem_map.mp hc
    exact isUpper_toUpper_of_isLower (hsmall d hd)
  have hcapitalise : capitalise w.capitals = capitalise w.small := by
    rw [capitals, small, List.map_cons, capitalise, capitalise, List.map_map,
      Char.toUpper_toUpper_eq_toUpper]
    congr 1
    exact List.map_congr_left fun c _ => Char.toLower_toUpper_eq_toLower c
  rw [spelling_of_capitals hcapitals, hcapitalise, capitalise_small]

end Word

/-! ### All words -/

theorem isUpper_head?_pascal (words : List Word) : ∀ c ∈ (pascal words).head?, c.isUpper := by
  intro c hc
  cases words with
  | nil => cases hc
  | cons w words =>
    rw [pascal_cons, Word.capitalised, List.cons_append, List.head?_cons] at hc
    rw [← Option.some.inj hc]
    exact isUpper_toUpper_of_isLower w.isLower_first

theorem spelling_pascal {words : List Word} (h : ∀ w ∈ words, w.letters ≠ []) :
    spelling (pascal words) = pascal words := by
  induction words with
  | nil => rfl
  | cons w words ih =>
    have hw : w.letters ≠ [] := h w List.mem_cons_self
    have hwords : ∀ v ∈ words, v.letters ≠ [] := fun v hv => h v (List.mem_cons_of_mem w hv)
    rw [pascal_cons, w.spelling_capitalised_append hw (isUpper_head?_pascal words), ih hwords]

/-- The name that words have in every spelling. -/
def nameOf (words : List Word) : String :=
  String.ofList (pascal words)

theorem caseName_of_spelling_eq {l : List Char} {first : Word} {others : List Word}
    (h : spelling l = pascal (first :: others)) :
    caseName (String.ofList l) = .ok (nameOf (first :: others)) := by
  rw [caseName_eq_ok_iff, String.toList_ofList, nameOf, String.toList_ofList, h]
  refine ⟨?_, rfl⟩
  rw [pascal_cons, Word.capitalised]
  simp

/-- Words have one name in all their spellings: with any separators between them and around them,
in small letters or, if they have no digits, in capitals; and if every word has two letters, also
without separators, with the first word small or not. -/
theorem caseName_of_spellings :
    (∀ (first : Word) (rest : List (Gap × Word)) (front back : List Char),
      (∀ c ∈ front, ¬ c.isAlphanum) → (∀ c ∈ back, ¬ c.isAlphanum) →
        caseName (String.ofList (front ++ joined Word.small first rest ++ back))
            = .ok (nameOf (first :: rest.map Prod.snd)) ∧
          ((∀ w ∈ first :: rest.map Prod.snd, w.digits = []) →
            caseName (String.ofList (front ++ joined Word.capitals first rest ++ back))
              = .ok (nameOf (first :: rest.map Prod.snd)))) ∧
    ∀ (first : Word) (others : List Word), (∀ w ∈ first :: others, w.letters ≠ []) →
      caseName (String.ofList (first.small ++ pascal others)) = .ok (nameOf (first :: others)) ∧
        caseName (nameOf (first :: others)) = .ok (nameOf (first :: others)) := by
  refine ⟨?separated, ?unseparated⟩
  case separated =>
    intro first rest front back hfront hback
    refine ⟨?small, ?capitals⟩
    case small =>
      apply caseName_of_spelling_eq
      rw [spelling_margins hfront hback, spelling_joined]
      exact List.flatMap_congr fun w _ => w.spelling_small
    case capitals =>
      intro hdigits
      apply caseName_of_spelling_eq
      rw [spelling_margins hfront hback, spelling_joined]
      exact List.flatMap_congr fun w hw => w.spelling_capitals (hdigits w hw)
  case unseparated =>
    intro first others hletters
    refine ⟨?camel, ?pascal⟩
    case camel =>
      have hothers : ∀ w ∈ others, w.letters ≠ [] :=
        fun w hw => hletters w (List.mem_cons_of_mem first hw)
      apply caseName_of_spelling_eq
      rw [first.spelling_small_append (isUpper_head?_pascal others), spelling_pascal hothers,
        pascal_cons]
    case pascal =>
      exact caseName_of_spelling_eq (spelling_pascal hletters)

/-! ### Two words -/

def blog : Word :=
  ⟨'b', ['l', 'o', 'g'], [], by decide, by simp, by simp⟩

def page : Word :=
  ⟨'p', ['a', 'g', 'e'], [], by decide, by simp, by simp⟩

def page2 : Word :=
  ⟨'p', ['a', 'g', 'e'], ['2'], by decide, by simp, by simp⟩

/-- A gap that also holds a letter, but none of ASCII. -/
def accentGap : Gap :=
  ⟨['é', '_'], by simp, by simp⟩

theorem caseName_of_spellings_blog :
    caseName "-blogé_page2 " = .ok "BlogPage2" ∧ caseName "-BLOGé_PAGE " = .ok "BlogPage" ∧
      caseName "blogPage2" = .ok "BlogPage2" ∧ caseName "BlogPage2" = .ok "BlogPage2" := by
  obtain ⟨hseparated, hunseparated⟩ := caseName_of_spellings
  obtain ⟨hsmall, -⟩ :=
    hseparated blog [(accentGap, page2)] ['-'] [' '] (by simp) (by simp)
  obtain ⟨-, hcapitals⟩ :=
    hseparated blog [(accentGap, page)] ['-'] [' '] (by simp) (by simp)
  obtain ⟨hcamel, hpascal⟩ := hunseparated blog [page2] (by simp [blog, page2])
  exact ⟨hsmall, hcapitals (by simp [blog, page]), hcamel, hpascal⟩

end ContentTypes.Casing
