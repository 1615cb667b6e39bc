import ContentTypes.Proofs.Casing.Marks
import Mathlib
/-!
The spelling of a name. The symbols of a text that open a segment are written as capitals and the
others as small letters. A symbol that is neither letter nor digit separates what stands around
it, and a symbol put at the end of a text can change the mark of the last one only.
-/

namespace ContentTypes.Casing

section Classes

theorem isUpper_iff {c : Char} : c.isUpper = true ↔ 65 ≤ c.toNat ∧ c.toNat ≤ 90 := by
  simp [Char.isUpper, UInt32.le_iff_toNat_le]

theorem isLower_iff {c : Char} : c.isLower = true ↔ 97 ≤ c.toNat ∧ c.toNat ≤ 122 := by
  simp [Char.isLower, UInt32.le_iff_toNat_le]

theorem isDigit_iff {c : Char} : c.isDigit = true ↔ 48 ≤ c.toNat ∧ c.toNat ≤ 57 := by
  simp [Char.isDigit, UInt32.le_iff_toNat_le]

theorem ofChar_eq_capital_iff {c : Char} : Letter.ofChar c = .capital ↔ c.isUpper = true := by
  rw [isUpper_iff, Letter.ofChar, Letter.ofCode]
  simp only [Char.reduceToNat]
  split_ifs <;> simp <;> omega

theorem ofChar_eq_small_iff {c : Char} : Letter.ofChar c = .small ↔ c.isLower = true := by
  rw [isLower_iff, Letter.ofChar, Letter.ofCode]
  simp only [Char.reduceToNat]
  split_ifs <;> simp <;> omega

theorem ofChar_eq_digit_iff {c : Char} : Letter.ofChar c = .digit ↔ c.isDigit = true := by
  rw [isDigit_iff, Letter.ofChar, Letter.ofCode]
  simp only [Char.reduceToNat]
  split_ifs <;> simp <;> omega

theorem ofChar_isLetter_iff {c : Char} :
    Letter.ofChar c = .small ∨ Letter.ofChar c = .capital ↔ c.isAlpha = true := by
  rw [ofChar_eq_small_iff, ofChar_eq_capital_iff, Char.isAlpha, Bool.or_eq_true, or_comm]

end Classes

section Joined

variable {α : Type} (letter : α → Letter)

theorem digitEndsCapitals_append_cons {x : α} (hx : letter x ≠ .capital) (p m : List α) :
    digitEndsCapitals letter (p ++ x :: m) = digitEndsCapitals letter (p ++ [x]) := by
  induction p with
  | nil => simp [digitEndsCapitals, hx]
  | cons a p ih =>
    by_cases ha : letter a = .capital
    · simpa [digitEndsCapitals, ha] using ih
    · simp [digitEndsCapitals, ha]

theorem opens_append_cons {x : α} (hx : letter x ≠ .capital) (before k : Letter) (p m : List α) :
    opens letter before k (p ++ x :: m) = opens letter before k (p ++ [x]) := by
  cases k with
  | capital =>
    rw [opens, opens, digitEndsCapitals_append_cons letter hx]
    cases p <;> rfl
  | small => rfl
  | digit => rfl
  | other => rfl

/-- A text is marked in two parts wherever the first part does not end in a capital. -/
theorem marks_append_cons {x : α} (hx : letter x ≠ .capital) (before : Letter) (p m : List α) :
    marks letter before (p ++ x :: m)
      = marks letter before (p ++ [x]) ++ marks letter (letter x) m := by
  induction p generalizing before with
  | nil =>
    cases hk : letter x <;> simp_all [marks, opens]
  | cons a p ih =>
    simp only [List.cons_append, marks, ih, opens_append_cons letter hx]
    split_ifs <;> rfl

theorem opens_concat_other {c : α} (hc : letter c = .other) (before k : Letter) (p : List α) :
    opens letter before k (p ++ [c]) = opens letter before k p := by
  cases k with
  | capital =>
    have hdigit : digitEndsCapitals letter (p ++ [c]) = digitEndsCapitals letter p := by
      induction p with
      | nil => simp [digitEndsCapitals, hc]
      | cons a p ih =>
        by_cases ha : letter a = .capital
        · simpa [digitEndsCapitals, ha] using ih
        · simp [digitEndsCapitals, ha]
    rw [opens, opens, hdigit]
    cases p <;> simp [hc]
  | small => rfl
  | digit => rfl
  | other => rfl

theorem marks_concat_other {c : α} (hc : letter c = .other) (before : Letter) (p : List α) :
    marks letter before (p ++ [c]) = marks letter before p := by
  induction p generalizing before with
  | nil => simp [marks, hc]
  | cons a p ih => simp only [List.cons_append, marks, ih, opens_concat_other letter hc]

/-- A separator is like the end of the text in front of it and the start of the one behind. -/
theorem marks_append_separator {c : α} (hc : letter c = .other) (before : Letter)
    (p m : List α) :
    marks letter before (p ++ c :: m) = marks letter before p ++ marks letter .other m := by
  rw [marks_append_cons letter (by simp [hc]), marks_concat_other letter hc, hc]

theorem exists_marks_concat {x : α} (hx : letter x ≠ .other) (before : Letter) (p : List α) :
    ∃ ms, marks letter before (p ++ [x])
      = ms ++ [(x, opens letter (lastClass letter before p) (letter x) [])] := by
  induction p generalizing before with
  | nil => exact ⟨[], by simp [marks, hx]⟩
  | cons a p ih =>
    obtain ⟨ms, hms⟩ := ih (letter a)
    by_cases ha : letter a = .other
    · exact ⟨ms, by simpa [marks, ha] using hms⟩
    · exact ⟨(a, opens letter before (letter a) (p ++ [x])) :: ms, by simp [marks, ha, hms]⟩

theorem opens_concat_capital_small {x s : α} (hx : letter x = .capital)
    (hs : letter s = .small) (before k : Letter) (p : List α) :
    opens letter before k (p ++ [x, s]) = opens letter before k (p ++ [x]) := by
  cases k with
  | capital =>
    have hdigit : digitEndsCapitals letter (p ++ [x, s])
        = digitEndsCapitals letter (p ++ [x]) := by
      induction p with
      | nil => simp [digitEndsCapitals, hx, hs]
      | cons a p ih =>
        by_cases ha : letter a = .capital
        · simpa [digitEndsCapitals, ha] using ih
        · simp [digitEndsCapitals, ha]
    rw [opens, opens, hdigit]
    cases p <;> rfl
  | small => rfl
  | digit => rfl
  | other => rfl

/-- A small letter behind a capital at the end makes that capital open a segment, and changes
no other mark. -/
theorem exists_marks_concat_small {x s : α} (hx : letter x = .capital) (hs : letter s = .small)
    (before : Letter) (p : List α) :
    ∃ ms, marks letter before (p ++ [x])
        = ms ++ [(x, opens letter (lastClass letter before p) .capital [])] ∧
      marks letter before (p ++ [x, s]) = ms ++ [(x, true), (s, false)] := by
  induction p generalizing before with
  | nil => exact ⟨[], by simp [marks, hx], by simp [marks, opens, hx, hs]⟩
  | cons a p ih =>
    obtain ⟨ms, hms, hms'⟩ := ih (letter a)
    by_cases ha : letter a = .other
    · exact ⟨ms, by simpa [marks, ha] using hms, by simpa [marks, ha] using hms'⟩
    · refine ⟨(a, opens letter before (letter a) (p ++ [x])) :: ms, by simp [marks, ha, hms], ?_⟩
      simp [marks, ha, hms', opens_concat_capital_small letter hx hs]

end Joined

/-- How a marked symbol is written. -/
def written (m : Char × Bool) : Char :=
  if m.2 then m.1.toUpper else m.1.toLower

def spelling (l : List Char) : List Char :=
  (marks Letter.ofChar .other l).map written

theorem map_written_marked (g : List Char) : (marked g).map written = capitalise g := by
  cases g with
  | nil => rfl
  | cons c g => simp [marked, written, capitalise]

theorem flatMap_capitalise_segments (l : List Char) :
    (segments Letter.ofChar l).flatMap capitalise = spelling l := by
  rw [spelling, marks_eq, List.map_flatMap]
  simp only [map_written_marked]

/-- A name is the spelling of the text; only a text without letters and digits has none. -/
theorem caseName_eq (s : String) :
    caseName s = if spelling s.toList = [] then .error (.noSegments s)
      else .ok (String.ofList (spelling s.toList)) := by
  rw [caseName, ← flatMap_capitalise_segments]
  cases hs : segments Letter.ofChar s.toList with
  | nil => simp
  | cons g gs =>
    have hg : g ≠ [] := ne_nil_of_mem_segments Letter.ofChar (hs ▸ List.mem_cons_self)
    have hne : (g :: gs).flatMap capitalise ≠ [] := by
      cases g with
      | nil => exact absurd rfl hg
      | cons c g => simp [capitalise]
    rw [if_neg hne]

theorem caseName_eq_ok_iff {s n : String} :
    caseName s = .ok n ↔ spelling s.toList ≠ [] ∧ n.toList = spelling s.toList := by
  rw [caseName_eq]
  by_cases h : spelling s.toList = []
  · simp [h]
  · simp only [h, if_false, Except.ok.injEq, ne_eq, not_false_eq_true, true_and]
    rw [← String.toList_inj, String.toList_ofList]
    exact eq_comm

theorem spelling_append_separator {c : Char} (hc : Letter.ofChar c = .other) (a b : List Char) :
    spelling (a ++ c :: b) = spelling a ++ spelling b := by
  simp [spelling, marks_append_separator Letter.ofChar hc]

end ContentTypes.Casing
