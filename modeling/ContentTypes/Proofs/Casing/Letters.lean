import ContentTypes.Proofs.Casing.Spelling
import Mathlib
/-!
The letters of a name. The letters and digits of a text come out again in its name, each once and
in their order, and nothing else does; only their case may change, and the first one is never
small.
-/

namespace ContentTypes.Casing

variable {l : List Char} {s n : String}

theorem ofChar_ne_other_iff {c : Char} : Letter.ofChar c ≠ .other ↔ c.isAlphanum := by
  cases hc : Letter.ofChar c with
  | capital => simp [Char.isAlphanum, Char.isAlpha, ofChar_eq_capital_iff.mp hc]
  | small => simp [Char.isAlphanum, Char.isAlpha, ofChar_eq_small_iff.mp hc]
  | digit => simp [Char.isAlphanum, ofChar_eq_digit_iff.mp hc]
  | other =>
    have hcapital := ofChar_eq_capital_iff.not.mp (by simp [hc] : Letter.ofChar c ≠ .capital)
    have hsmall := ofChar_eq_small_iff.not.mp (by simp [hc] : Letter.ofChar c ≠ .small)
    have hdigit := ofChar_eq_digit_iff.not.mp (by simp [hc] : Letter.ofChar c ≠ .digit)
    simp [Char.isAlphanum, Char.isAlpha, hcapital, hsmall, hdigit]

/-- What is marked in a text are its letters and digits. -/
theorem map_fst_marks_ofChar (l : List Char) :
    (marks Letter.ofChar .other l).map Prod.fst = l.filter Char.isAlphanum := by
  rw [map_fst_marks]
  apply List.filter_congr
  intro c _
  rw [Bool.eq_iff_iff, decide_eq_true_eq]
  exact ofChar_ne_other_iff

/-! ### How a symbol is written -/

theorem toLower_written (m : Char × Bool) : (written m).toLower = m.1.toLower := by
  rw [written]
  split_ifs
  · exact Char.toLower_toUpper_eq_toLower m.1
  · exact Char.toLower_toLower_eq_toLower m.1

theorem isAlphanum_written {m : Char × Bool} (h : m.1.isAlphanum) : (written m).isAlphanum := by
  rw [Char.isAlphanum, Bool.or_eq_true] at h
  rcases h with halpha | hdigit
  · rw [written]
    split_ifs
    · simp [Char.isAlphanum, Char.isAlpha_toUpper_eq_isAlpha, halpha]
    · simp [Char.isAlphanum, Char.isAlpha_toLower_eq_isAlpha, halpha]
  · have hcase : written m = m.1 := by
      have hrange := isDigit_iff.mp hdigit
      rw [written]
      split_ifs
      · apply Char.toUpper_eq_of_not_isLower
        rw [isLower_iff]
        omega
      · apply Char.toLower_eq_of_not_isUpper
        rw [isUpper_iff]
        omega
    simp [Char.isAlphanum, hcase, hdigit]

theorem isAlphanum_of_mem_spelling {c : Char} (h : c ∈ spelling l) : c.isAlphanum := by
  obtain ⟨m, hm, rfl⟩ := List.mem_map.mp h
  have hfst : m.1 ∈ l.filter Char.isAlphanum := by
    rw [← map_fst_marks_ofChar]
    exact List.mem_map_of_mem hm
  exact isAlphanum_written (List.mem_filter.mp hfst).2

/-- Up to case, a text is spelled with exactly its letters and digits. -/
theorem map_toLower_spelling (l : List Char) :
    (spelling l).map Char.toLower = (l.filter Char.isAlphanum).map Char.toLower := by
  rw [← map_fst_marks_ofChar, spelling, List.map_map, List.map_map]
  apply List.map_congr_left
  intro m _
  exact toLower_written m

theorem spelling_eq_nil_iff : spelling l = [] ↔ ∀ c ∈ l, ¬ c.isAlphanum := by
  rw [← List.map_eq_nil_iff (f := Char.toLower), map_toLower_spelling, List.map_eq_nil_iff,
    List.filter_eq_nil_iff]

/-- The first symbol of a text opens a segment, whatever comes behind it. -/
theorem not_isLower_head?_spelling (l : List Char) : ∀ c ∈ (spelling l).head?, ¬ c.isLower := by
  induction l with
  | nil => simp [spelling, marks]
  | cons a l ih =>
    by_cases ha : Letter.ofChar a = .other
    · simpa [spelling, marks, ha] using ih
    · simp [spelling, marks, ha, opens_other, written]

/-- A text has a name exactly if it holds a letter or digit of ASCII. The name is made of such
symbols alone, starts with no small letter, and is up to case the letters and digits of the text,
all of them and in their order; a text without a name is reported as it stands. -/
theorem caseName_keeps_letters (s : String) :
    ((∃ n, caseName s = .ok n) ↔ ∃ c ∈ s.toList, c.isAlphanum) ∧
      (∀ n, caseName s = .ok n → (∀ c ∈ n.toList, c.isAlphanum) ∧
        (∃ c r, n.toList = c :: r ∧ ¬ c.isLower) ∧
        n.toList.map Char.toLower = (s.toList.filter Char.isAlphanum).map Char.toLower) ∧
      ∀ e, caseName s = .error e → e = .noSegments s := by
  refine ⟨?named, ?name, ?unnamed⟩
  case named =>
    have hne : spelling s.toList ≠ [] ↔ ∃ c ∈ s.toList, c.isAlphanum := by
      simp [spelling_eq_nil_iff]
    rw [← hne, caseName_eq]
    split_ifs with h <;> simp [h]
  case name =>
    intro n hn
    obtain ⟨hne, hspelling⟩ := caseName_eq_ok_iff.mp hn
    obtain ⟨c, r, hcons⟩ := List.exists_cons_of_ne_nil hne
    rw [hspelling]
    refine ⟨fun c hc => isAlphanum_of_mem_spelling hc, ⟨c, r, hcons, ?_⟩,
      map_toLower_spelling s.toList⟩
    apply not_isLower_head?_spelling s.toList
    rw [hcons]
    rfl
  case unnamed =>
    intro e he
    rw [caseName_eq] at he
    split_ifs at he
    exact (Except.error.inj he).symm

/-- Separators, an acronym and a letter outside ASCII. -/
theorem caseName_keeps_letters_of_mixed :
    caseName "é_HTMLPage-2" = .ok "HtmlPage2" ∧ (∀ c ∈ "HtmlPage2".toList, c.isAlphanum) ∧
      "HtmlPage2".toList.map Char.toLower
        = ("é_HTMLPage-2".toList.filter Char.isAlphanum).map Char.toLower := by
  have hname : caseName "é_HTMLPage-2" = .ok "HtmlPage2" := by cbv
  obtain ⟨-, hall, -⟩ := caseName_keeps_letters "é_HTMLPage-2"
  obtain ⟨hletters, -, hsame⟩ := hall _ hname
  exact ⟨hname, hletters, hsame⟩

end ContentTypes.Casing
