import ContentTypes.Path
import ContentTypes.Proofs.Casing.Marks
import Mathlib
/-!
Acronyms. An acronym is looked for by trying every number of capitals, from all that stand in front
down to two. No more than the last of them can be given up, so what follows the capitals decides:
an end of the word leaves all of them, a small letter all but the last, a digit none.
-/

namespace ContentTypes.Casing

/-- The lengths that are tried on a run of `k` capitals, in their order. -/
def candidates (k : Nat) : List Nat :=
  (List.range' 2 (k - 1)).reverse

theorem candidates_add_two (k : Nat) : candidates (k + 2) = (k + 2) :: candidates (k + 1) := by
  have hlast : List.range' 2 (k + 1) = List.range' 2 k ++ [2 + k] := by
    rw [List.range'_concat, Nat.one_mul]
  simp [candidates, hlast, Nat.add_comm]

theorem mem_candidates_iff {k n : Nat} : n ∈ candidates k ↔ 2 ≤ n ∧ n ≤ k := by
  rw [candidates, List.mem_reverse, List.mem_range'_1]
  omega

theorem candidates_eq_filter (k : Nat) :
    candidates k = (List.range' 1 k).reverse.filter (2 ≤ ·) := by
  cases k with
  | zero => rfl
  | succ k =>
    have hall : ∀ n ∈ List.range' 2 k, decide (2 ≤ n) = true := by
      intro n hn
      exact decide_eq_true (List.mem_range'_1.mp hn).1
    rw [candidates, List.filter_reverse, List.range'_succ, List.filter_cons_of_neg (by decide),
      List.filter_eq_self.mpr hall, Nat.add_sub_cancel]

section Search

variable {α : Type} (letter : α → Letter) {l : List α}

/-- Behind `n` capitals that were read before, every number of further ones is tried, the greatest
first. -/
theorem acronym_eq_find?_range' (n : Nat) (l : List α) :
    acronym letter n l = ((List.range' 1 (run letter .capital l)).reverse.find? fun j =>
      2 ≤ n + j && stopsAcronym letter (l.drop j)).map (n + ·) := by
  induction l generalizing n with
  | nil => rfl
  | cons a l ih =>
    by_cases ha : letter a = .capital
    · have hrun : run letter .capital (a :: l) = run letter .capital l + 1 := by simp [run, ha]
      have hrange : List.range' 1 (run letter .capital l + 1)
          = 1 :: (List.range' 1 (run letter .capital l)).map (1 + ·) := by
        rw [List.range'_succ, List.map_add_range']
      rw [acronym, if_pos ha, ih, hrun, hrange, List.reverse_cons, ← List.map_reverse,
        List.find?_append, List.find?_map]
      -- the last length tried is the one that takes the capital in front alone
      have hone : ([1].find? fun j => 2 ≤ n + j && stopsAcronym letter ((a :: l).drop j))
          = if 2 ≤ n + 1 ∧ stopsAcronym letter l then some 1 else none := by
        by_cases hstop : 2 ≤ n + 1 ∧ stopsAcronym letter l = true
        · simp [hstop]
        · rw [if_neg hstop]
          simpa using hstop
      simp only [Function.comp_def, Nat.add_assoc, Nat.add_comm 1, List.drop_succ_cons, hone,
        Option.map_or, Option.map_map, Option.orElse_eq_orElse, Option.orElse_eq_or,
        apply_ite (Option.map (n + ·)), Option.map_some, Option.map_none]
    · have hrun : run letter .capital (a :: l) = 0 := by simp [run, ha]
      rw [acronym, if_neg ha, hrun]
      rfl

/-- An acronym is the first of the lengths, from the longest down, at which it may stop. -/
theorem acronym_eq_find? (l : List α) :
    acronym letter 0 l = (candidates (run letter .capital l)).find? fun n =>
      stopsAcronym letter (l.drop n) := by
  have h := acronym_eq_find?_range' letter 0 l
  simp only [Nat.zero_add, Option.map_id_fun', id_eq] at h
  rw [h, candidates_eq_filter, List.find?_filter]
  simp only [Bool.decide_and, Bool.decide_eq_true]

/-! ### Where an acronym may stop -/

/-- The class of what follows the capitals in front, and nothing at the end of the text. -/
def afterCapitals (l : List α) : Option Letter :=
  l[run letter .capital l]?.map letter

theorem exists_capitals (l : List α) :
    ∃ g r, l = g ++ r ∧ run letter .capital l = g.length ∧ (∀ a ∈ g, letter a = .capital) ∧
      afterCapitals letter l = r.head?.map letter ∧ r.head?.map letter ≠ some .capital := by
  obtain ⟨g, r, hl, hrun, hg, hr⟩ := run_split letter .capital l
  refine ⟨g, r, hl, hrun, hg, ?_, hr⟩
  rw [afterCapitals, hrun, ← List.head?_drop, hl, List.drop_left]

/-- Behind all capitals an acronym may stop at an end of the word only. -/
theorem stopsAcronym_drop_run (l : List α) :
    stopsAcronym letter (l.drop (run letter .capital l)) = true ↔
      afterCapitals letter l = none ∨ afterCapitals letter l = some .other := by
  obtain ⟨g, r, rfl, hrun, -, hafter, hr⟩ := exists_capitals letter l
  rw [hrun, hafter, List.drop_left]
  cases r with
  | nil => simp [stopsAcronym]
  | cons a r => cases ha : letter a <;> simp_all [stopsAcronym]

/-- In front of the last capital an acronym may stop if that capital starts a word. -/
theorem stopsAcronym_drop_pred {k : Nat} (hk : run letter .capital l = k + 1) :
    stopsAcronym letter (l.drop k) = true ↔ afterCapitals letter l = some .small := by
  obtain ⟨g, r, rfl, hrun, hg, hafter, -⟩ := exists_capitals letter l
  rw [hk] at hrun
  obtain ⟨p, a, rfl⟩ : ∃ p a, g = p ++ [a] := by
    rcases List.eq_nil_or_concat g with rfl | ⟨p, a, hp⟩
    · cases hrun
    · exact ⟨p, a, by rw [hp, List.concat_eq_append]⟩
  have hp : p.length = k := by simpa using hrun.symm
  have ha : letter a = .capital := hg a (by simp)
  rw [hafter, List.append_assoc, ← hp, List.drop_left]
  cases r with
  | nil => simp [stopsAcronym, ha]
  | cons b r => simp [stopsAcronym, ha]

/-- In front of two capitals no acronym stops. -/
theorem stopsAcronym_drop_of_lt {n : Nat} (hn : n + 1 < run letter .capital l) :
    stopsAcronym letter (l.drop n) = false := by
  obtain ⟨g, r, rfl, hrun, hg, -, -⟩ := exists_capitals letter l
  rw [hrun] at hn
  have hdrop : (g ++ r).drop n = g[n] :: g[n + 1] :: (g ++ r).drop (n + 2) := by
    rw [List.drop_eq_getElem_cons (by simp; omega), List.drop_eq_getElem_cons (by simp; omega),
      List.getElem_append_left, List.getElem_append_left]
  have hfirst : letter g[n] = .capital := hg _ (List.getElem_mem _)
  have hsecond : letter g[n + 1] = .capital := hg _ (List.getElem_mem _)
  simp [hdrop, stopsAcronym, hfirst, hsecond]

/-! ### Which length is found -/

theorem find?_candidates_eq_none {k : Nat} (hk : k + 1 < run letter .capital l) :
    ((candidates k).find? fun n => stopsAcronym letter (l.drop n)) = none := by
  rw [List.find?_eq_none]
  intro n hn
  have hle := (mem_candidates_iff.mp hn).2
  rw [stopsAcronym_drop_of_lt letter (by omega)]
  decide

/-- What follows the capitals decides which of them are an acronym. -/
theorem acronym_eq (l : List α) :
    acronym letter 0 l =
      if 2 ≤ run letter .capital l ∧
          (afterCapitals letter l = none ∨ afterCapitals letter l = some .other) then
        some (run letter .capital l)
      else if 3 ≤ run letter .capital l ∧ afterCapitals letter l = some .small then
        some (run letter .capital l - 1)
      else none := by
  simp only [acronym_eq_find?, ← stopsAcronym_drop_run]
  generalize hk : run letter .capital l = k
  match k with
  | 0 => rfl
  | 1 => rfl
  | 2 =>
    rw [candidates_add_two, List.find?_cons]
    cases stopsAcronym letter (l.drop 2) <;> simp [candidates]
  | k + 3 =>
    simp only [candidates_add_two, List.find?_cons, ← stopsAcronym_drop_pred letter hk]
    rw [find?_candidates_eq_none letter (by omega)]
    cases stopsAcronym letter (l.drop (k + 3)) <;>
      cases stopsAcronym letter (l.drop (k + 2)) <;> simp

/-- An acronym from a place on ends where the `k` capitals from there end, if there are two and the
text or the word ends with them; in front of the last of them, if there are three and a small letter
follows; and there is none otherwise, so none in front of a digit. It is the first that is found by
trying `k` capitals, one less, and so on down to two, and with less than `k - 1` of them the search
cannot stop. -/
theorem acronym_decided_behind_capitals (l : List α) (place : Nat) :
    let k := run letter .capital (l.drop place)
    let next := l[place + k]?.map letter
    (acronym letter 0 (l.drop place)).map (place + ·)
        = (if 2 ≤ k ∧ (next = none ∨ next = some .other) then some (place + k)
          else if 3 ≤ k ∧ next = some .small then some (place + (k - 1))
          else none) ∧
      acronym letter 0 (l.drop place)
        = ((candidates k).find? fun n => stopsAcronym letter (l.drop (place + n))) ∧
      ∀ n, n + 1 < k → stopsAcronym letter (l.drop (place + n)) = false := by
  intro k next
  have hnext : afterCapitals letter (l.drop place) = next := by
    rw [afterCapitals, List.getElem?_drop]
  refine ⟨?closed, ?search, ?shorter⟩
  case closed =>
    rw [acronym_eq, hnext]
    split_ifs <;> rfl
  case search =>
    simp only [acronym_eq_find?, List.drop_drop]
    rfl
  case shorter =>
    intro n hn
    rw [← List.drop_drop]
    exact stopsAcronym_drop_of_lt letter hn

end Search

/-- Four capitals in front of a small letter: the last of them is not taken. -/
theorem acronym_of_parseXMLHttp :
    (acronym Letter.ofByte 0 ((utf8 "parseXMLHttp").drop 5)).map (5 + ·) = some 8 ∧
      2 + 1 < run Letter.ofByte .capital ((utf8 "parseXMLHttp").drop 5) ∧
      stopsAcronym Letter.ofByte ((utf8 "parseXMLHttp").drop (5 + 2)) = false := by
  obtain ⟨hclosed, -, hshorter⟩ :=
    acronym_decided_behind_capitals Letter.ofByte (utf8 "parseXMLHttp") 5
  have hrun : run Letter.ofByte .capital ((utf8 "parseXMLHttp").drop 5) = 4 := by decide
  have hlt : 2 + 1 < run Letter.ofByte .capital ((utf8 "parseXMLHttp").drop 5) := by
    rw [hrun]
    decide
  refine ⟨hclosed.trans ?_, hlt, hshorter 2 hlt⟩
  rw [hrun]
  decide

end ContentTypes.Casing
