import ContentTypes.Casing
/-!
Where segments begin. Whether a symbol opens a segment shows in the class of the symbol before it
and in what follows it, so a text can be marked symbol by symbol. The scan with its four rules
cuts at exactly the marked symbols (`marks_eq`).
-/

namespace ContentTypes.Casing

section Cut

variable {α : Type} (letter : α → Letter)

/-- Whether a digit ends the capitals in front, so that no acronym can stop among them. -/
def digitEndsCapitals (l : List α) : Bool :=
  ((l.dropWhile fun a => letter a = .capital).head?.map letter) = some .digit

/-- Whether a symbol of class `k` opens a segment after one of class `before` and in front
of `l`. -/
def opens (before k : Letter) (l : List α) : Bool :=
  match k with
  | .capital =>
    before ≠ .capital || (l.head?.map letter) = some .small || digitEndsCapitals letter l
  | .small => before ≠ .small && before ≠ .capital
  | .digit => before ≠ .digit && before ≠ .small
  | .other => false

/-- The letters and digits in their order, each with whether it opens a segment. -/
def marks (before : Letter) : List α → List (α × Bool)
  | [] => []
  | a :: l =>
    if letter a = .other then marks .other l
    else (a, opens letter before (letter a) l) :: marks (letter a) l

/-- A segment is opened by its first symbol and by no other. -/
def marked : List α → List (α × Bool)
  | [] => []
  | a :: l => (a, true) :: l.map fun b => (b, false)

/-- The class of the last symbol, or `before` where there is none. -/
def lastClass (before : Letter) (l : List α) : Letter :=
  (l.getLast?.map letter).getD before

@[simp] theorem lastClass_nil (before : Letter) : lastClass letter before [] = before := rfl

@[simp] theorem lastClass_cons (before : Letter) (a : α) (l : List α) :
    lastClass letter before (a :: l) = lastClass letter (letter a) l := by
  simp only [lastClass, List.getLast?_cons]
  cases l.getLast? <;> rfl

theorem lastClass_of_all {before k : Letter} {g : List α} (hg : ∀ a ∈ g, letter a = k)
    (hne : g ≠ []) : lastClass letter before g = k := by
  rw [lastClass, List.getLast?_eq_some_getLast hne]
  exact hg _ (List.getLast_mem hne)

theorem opens_other {k : Letter} (hk : k ≠ .other) (l : List α) :
    opens letter .other k l = true := by
  cases k <;> simp_all [opens]

theorem map_fst_marks (before : Letter) (l : List α) :
    (marks letter before l).map Prod.fst = l.filter fun a => letter a ≠ .other := by
  induction l generalizing before with
  | nil => rfl
  | cons a l ih =>
    by_cases ha : letter a = .other
    · simp [marks, ha, ih]
    · simp [marks, ha, ih]

/-- What was read before a symbol does not matter where that symbol opens a segment. -/
theorem marks_eq_of_opens {before : Letter} {l : List α}
    (h : ∀ a r, l = a :: r → letter a ≠ .other → opens letter before (letter a) r = true) :
    marks letter before l = marks letter .other l := by
  cases l with
  | nil => rfl
  | cons a r =>
    by_cases ha : letter a = .other
    · simp [marks, ha]
    · simp [marks, ha, h a r rfl ha, opens_other letter ha]

/-- Small letters and digits run on without a mark. -/
theorem marks_append_of_class {before k : Letter} (hk : k = .small ∨ k = .digit)
    (hb : ∀ l : List α, opens letter before k l = false) {g : List α}
    (hg : ∀ a ∈ g, letter a = k) (r : List α) :
    marks letter before (g ++ r)
      = (g.map fun b => (b, false)) ++ marks letter (lastClass letter before g) r := by
  have hself : ∀ l : List α, opens letter k k l = false := by
    rcases hk with rfl | rfl <;> simp [opens]
  have hother : k ≠ .other := by rcases hk with rfl | rfl <;> decide
  induction g generalizing before with
  | nil => rfl
  | cons a g ih =>
    have ha : letter a = k := hg a (by simp)
    simp only [List.cons_append, marks, ha, hother, if_false, hb, List.map_cons, lastClass_cons]
    rw [ih hself fun b hb => hg b (by simp [hb])]

/-- Capitals run on without a mark up to where an acronym may stop. -/
theorem marks_append_of_capitals {g r : List α} (hg : ∀ a ∈ g, letter a = .capital)
    (hr : stopsAcronym letter r = true) :
    marks letter .capital (g ++ r) = (g.map fun b => (b, false)) ++ marks letter .capital r := by
  have hdigit : digitEndsCapitals letter r = false := by
    cases r with
    | nil => rfl
    | cons b r => cases hb : letter b <;> cases r <;> simp_all [stopsAcronym, digitEndsCapitals]
  have hsmall : (r.head?.map letter) ≠ some .small := by
    cases r with
    | nil => simp
    | cons b r => cases hb : letter b <;> simp_all [stopsAcronym]
  induction g with
  | nil => rfl
  | cons a g ih =>
    have ha : letter a = .capital := hg a (by simp)
    have hg' : ∀ b ∈ g, letter b = .capital := fun b hb => hg b (by simp [hb])
    have hopen : opens letter .capital .capital (g ++ r) = false := by
      have hhead : ((g ++ r).head?.map letter) ≠ some .small := by
        cases g with
        | nil => exact hsmall
        | cons b g => simp [hg' b (by simp)]
      have hend : digitEndsCapitals letter (g ++ r) = false := by
        rw [digitEndsCapitals, List.dropWhile_append_of_pos (by simpa using hg')]
        exact hdigit
      rw [opens, decide_eq_false hhead, hend]
      rfl
    simp only [List.cons_append, marks, ha, hopen, List.map_cons, ih hg', reduceCtorEq, if_false]

/-! ### The four rules -/

/-- The first `n` symbols are a segment that the marks agree with. -/
def CutsAt (l : List α) (n : Nat) : Prop :=
  0 < n ∧ n ≤ l.length ∧
    marks letter .other l = marked (l.take n) ++ marks letter .other (l.drop n)

theorem CutsAt.of_append {g r : List α} (hg : g ≠ [])
    (h : marks letter .other (g ++ r) = marked g ++ marks letter .other r) :
    CutsAt letter (g ++ r) g.length := by
  refine ⟨List.length_pos_iff.mpr hg, by simp, ?_⟩
  simpa using h

/-- What `run` counts, what follows it, and where it stops. -/
theorem run_split (k : Letter) (l : List α) :
    ∃ g r, l = g ++ r ∧ run letter k l = g.length ∧ (∀ a ∈ g, letter a = k) ∧
      (r.head?.map letter) ≠ some k := by
  refine ⟨_, _, (List.takeWhile_append_dropWhile (p := fun a => letter a = k)).symm, rfl, ?_, ?_⟩
  · intro a ha
    simpa using List.all_eq_true.mp List.all_takeWhile a ha
  · have h := List.head?_dropWhile_not (fun a => decide (letter a = k)) l
    cases hd : (l.dropWhile fun a => letter a = k).head? with
    | none => simp
    | some b =>
      rw [hd] at h
      simpa using h

theorem acronym_split {n m : Nat} {l : List α} (h : acronym letter n l = some m) :
    ∃ g r, l = g ++ r ∧ m = n + g.length ∧ 2 ≤ m ∧ g ≠ [] ∧ (∀ a ∈ g, letter a = .capital) ∧
      stopsAcronym letter r = true := by
  induction l generalizing n m with
  | nil => simp [acronym] at h
  | cons a l ih =>
    by_cases ha : letter a = .capital
    · cases hl : acronym letter (n + 1) l with
      | some k =>
        have hm : k = m := by simpa [acronym, ha, hl] using h
        subst hm
        obtain ⟨g, r, rfl, hk, h2, -, hg, hr⟩ := ih hl
        refine ⟨a :: g, r, rfl, by simp only [List.length_cons]; omega, by omega, by simp, ?_, hr⟩
        simpa [ha] using hg
      | none =>
        have hm : (2 ≤ n + 1 ∧ stopsAcronym letter l = true) ∧ n + 1 = m := by
          simpa [acronym, ha, hl] using h
        exact ⟨[a], l, rfl, hm.2.symm, by omega, by simp, by simp [ha], hm.1.2⟩
    · simp [acronym, ha] at h

/-- Where no acronym stops among capitals, one that follows a capital opens a segment: a digit
ends them, or the next symbol is small. -/
theorem opens_capital_of_acronym_eq_none {n : Nat} (hn : 1 ≤ n) {l : List α}
    (h : acronym letter n l = none) (hl : stopsAcronym letter l = false) :
    opens letter .capital .capital l = true := by
  suffices hs : (l.head?.map letter) = some .small ∨ digitEndsCapitals letter l = true by
    rcases hs with hs | hs <;> simp [opens, hs]
  induction l generalizing n with
  | nil => simp [stopsAcronym] at hl
  | cons a l ih =>
    cases ha : letter a with
    | other => simp [stopsAcronym, ha] at hl
    | small => simp [ha]
    | digit => simp [digitEndsCapitals, ha]
    | capital =>
      obtain ⟨h', hstop⟩ : acronym letter (n + 1) l = none ∧ stopsAcronym letter l = false := by
        simpa [acronym, ha, show 2 ≤ n + 1 by omega] using h
      rcases ih (by omega) h' hstop with hs | hs
      · cases l with
        | nil => simp at hs
        | cons b l => simp_all [stopsAcronym]
      · right
        simpa [digitEndsCapitals, ha] using hs

/-- Capitals up to where an acronym may stop are one segment. -/
theorem marks_append_of_acronym {g r : List α} (hne : g ≠ [])
    (hg : ∀ a ∈ g, letter a = .capital) (hr : stopsAcronym letter r = true) :
    marks letter .other (g ++ r) = marked g ++ marks letter .other r := by
  have hafter : marks letter .capital r = marks letter .other r := by
    apply marks_eq_of_opens
    intro a t hrt hat
    subst hrt
    cases t <;> cases ha : letter a <;> simp_all [stopsAcronym, opens]
  cases g with
  | nil => exact absurd rfl hne
  | cons a g =>
    have ha : letter a = .capital := hg a (by simp)
    have hg' : ∀ b ∈ g, letter b = .capital := fun b hb => hg b (by simp [hb])
    simp [marks, marked, ha, opens_other, marks_append_of_capitals letter hg' hr, hafter]

theorem cutsAt_of_acronym {n : Nat} {l : List α} (h : acronym letter 0 l = some n) :
    CutsAt letter l n := by
  obtain ⟨g, r, rfl, rfl, -, hne, hg, hr⟩ := acronym_split letter h
  rw [Nat.zero_add]
  exact CutsAt.of_append letter hne (marks_append_of_acronym letter hne hg hr)

/-- Digits after a small letter or a digit belong to its segment, which then ends. -/
theorem marks_append_of_digits {before : Letter} (hb : before = .small ∨ before = .digit)
    {d r : List α} (hd : ∀ a ∈ d, letter a = .digit) (hr : (r.head?.map letter) ≠ some .digit)
    (hs : d = [] → before = .small → (r.head?.map letter) ≠ some .small) :
    marks letter before (d ++ r) = (d.map fun b => (b, false)) ++ marks letter .other r := by
  rw [marks_append_of_class letter (.inr rfl) (by rcases hb with rfl | rfl <;> simp [opens]) hd]
  congr 1
  apply marks_eq_of_opens
  intro a t hrt hat
  subst hrt
  by_cases hde : d = []
  · subst hde
    rcases hb with rfl | rfl <;> cases ha : letter a <;> simp_all [opens]
  · rw [lastClass_of_all letter hd hde]
    cases ha : letter a <;> simp_all [opens]

theorem cutsAt_of_digits {n : Nat} {l : List α} (h : digits letter l = some n) :
    CutsAt letter l n := by
  obtain ⟨g, r, rfl, hlen, hg, hr⟩ := run_split letter .digit l
  have hn : g.length = n ∧ g ≠ [] := by
    rw [digits, hlen] at h
    cases g <;> simp_all
  rw [← hn.1]
  apply CutsAt.of_append letter hn.2
  cases g with
  | nil => exact absurd rfl hn.2
  | cons a g =>
    have ha : letter a = .digit := hg a (by simp)
    have hg' : ∀ b ∈ g, letter b = .digit := fun b hb => hg b (by simp [hb])
    simp [marks, marked, ha, opens_other, marks_append_of_digits letter (.inr rfl) hg' hr]

/-- A word is one letter, small letters and digits; a capital in front needs a small letter. -/
theorem word_split {n : Nat} {l : List α} (h : word letter l = some n) :
    ∃ a s d r, l = a :: (s ++ (d ++ r)) ∧ n = 1 + s.length + d.length ∧
      (letter a = .small ∨ letter a = .capital ∧ s ≠ []) ∧ (∀ b ∈ s, letter b = .small) ∧
      (∀ b ∈ d, letter b = .digit) ∧ (r.head?.map letter) ≠ some .digit ∧
      (d = [] → (r.head?.map letter) ≠ some .small) := by
  obtain ⟨c, t, rfl, hfirst, hc⟩ : ∃ c t, l = c ++ t ∧
      (if (l.head?.map letter) = some .capital then 1 else 0) = c.length ∧
      (c = [] ∨ ∃ a, c = [a] ∧ letter a = .capital) := by
    by_cases hl : (l.head?.map letter) = some .capital
    · cases l with
      | nil => simp at hl
      | cons a t => exact ⟨[a], t, rfl, by simpa using hl, .inr ⟨a, rfl, by simpa using hl⟩⟩
    · exact ⟨[], l, rfl, by simp [hl], .inl rfl⟩
  obtain ⟨s, u, rfl, hslen, hs, hu⟩ := run_split letter .small t
  obtain ⟨d, r, rfl, hdlen, hd, hr⟩ := run_split letter .digit u
  have hrest : (c ++ (s ++ (d ++ r))).drop (c.length + s.length) = d ++ r := by
    simp [← List.drop_drop]
  have hn : s ≠ [] ∧ n = c.length + s.length + d.length := by
    simp only [word, hfirst, List.drop_left, hslen] at h
    cases s with
    | nil => simp at h
    | cons b s =>
      simp only [List.length_cons] at h hrest
      rw [hrest, hdlen] at h
      exact ⟨by simp, by simpa using h.symm⟩
  have hsmall : d = [] → (r.head?.map letter) ≠ some .small := by
    intro hde
    simpa [hde] using hu
  rcases hc with rfl | ⟨a, rfl, ha⟩
  · cases s with
    | nil => exact absurd rfl hn.1
    | cons b s =>
      refine ⟨b, s, d, r, rfl, ?_, .inl (hs b (by simp)), fun x hx => hs x (by simp [hx]), hd, hr,
        hsmall⟩
      have := hn.2
      simp only [List.length_nil, List.length_cons] at this
      omega
  · exact ⟨a, s, d, r, rfl, by simpa using hn.2, .inr ⟨ha, hn.1⟩, hs, hd, hr, hsmall⟩

/-- A word is one segment, whatever follows it but a digit or, where it ends in a letter, a small
letter. -/
theorem marks_append_of_word {a : α} {s d r : List α}
    (ha : letter a = .small ∨ letter a = .capital ∧ s ≠ []) (hs : ∀ b ∈ s, letter b = .small)
    (hd : ∀ b ∈ d, letter b = .digit) (hr : (r.head?.map letter) ≠ some .digit)
    (hsmall : d = [] → (r.head?.map letter) ≠ some .small) :
    marks letter .other (a :: (s ++ (d ++ r)))
      = marked (a :: (s ++ d)) ++ marks letter .other r := by
  have hother : letter a ≠ .other := by rcases ha with ha | ⟨ha, -⟩ <;> simp [ha]
  have hlast : lastClass letter (letter a) s = .small := by
    by_cases hse : s = []
    · simpa [hse] using ha
    · exact lastClass_of_all letter hs hse
  have hsmallRun : ∀ t : List α, opens letter (letter a) .small t = false := by
    rcases ha with ha | ⟨ha, -⟩ <;> simp [opens, ha]
  have hrun := marks_append_of_class letter (.inl rfl) hsmallRun hs (d ++ r)
  rw [hlast, marks_append_of_digits letter (.inl rfl) hd hr fun hde _ => hsmall hde] at hrun
  simp [marks, marked, hother, opens_other letter hother, hrun]

theorem cutsAt_of_word {n : Nat} {l : List α} (h : word letter l = some n) :
    CutsAt letter l n := by
  obtain ⟨a, s, d, r, rfl, rfl, ha, hs, hd, hr, hsmall⟩ := word_split letter h
  have hmarks := marks_append_of_word letter ha hs hd hr hsmall
  have hsplit : a :: (s ++ (d ++ r)) = (a :: (s ++ d)) ++ r := by simp
  have hlen : 1 + s.length + d.length = (a :: (s ++ d)).length := by
    simp only [List.length_cons, List.length_append]
    omega
  rw [hsplit] at hmarks ⊢
  rw [hlen]
  exact CutsAt.of_append letter (by simp) hmarks

theorem cutsAt_of_capital {a : α} {l : List α} (ha : letter a = .capital)
    (hacronym : acronym letter 0 (a :: l) = none) (hword : word letter (a :: l) = none) :
    CutsAt letter (a :: l) 1 := by
  have hsmall : (l.head?.map letter) ≠ some .small := by
    intro hl
    cases l with
    | nil => simp at hl
    | cons b l => simp_all [word, run]
  apply CutsAt.of_append letter (g := [a]) (by simp)
  have hafter : marks letter .capital l = marks letter .other l := by
    apply marks_eq_of_opens
    intro b t hbt hb
    subst hbt
    cases hbk : letter b with
    | other => exact absurd hbk hb
    | small => simp [hbk] at hsmall
    | digit => simp [opens]
    | capital =>
      obtain ⟨h, hstop⟩ : acronym letter 2 t = none ∧ stopsAcronym letter t = false := by
        simpa [acronym, ha, hbk] using hacronym
      exact opens_capital_of_acronym_eq_none letter (by omega) h hstop
  simp [marks, marked, ha, opens_other, hafter]

/-- Whichever rule applies first, it cuts where the marks say. -/
theorem cutsAt_of_segmentLength {n : Nat} {l : List α} (h : segmentLength letter l = some n) :
    CutsAt letter l n := by
  rw [segmentLength] at h
  cases ha : acronym letter 0 l with
  | some k =>
    rw [ha] at h
    cases h
    exact cutsAt_of_acronym letter ha
  | none =>
    cases hw : word letter l with
    | some k =>
      rw [ha, hw] at h
      cases h
      exact cutsAt_of_word letter hw
    | none =>
      rw [ha, hw] at h
      by_cases hc : (l.head?.map letter) = some .capital
      · cases l with
        | nil => simp at hc
        | cons a l =>
          have hcap : letter a = .capital := by simpa using hc
          have hn : 1 = n := by simpa [capital, hcap] using h
          subst hn
          exact cutsAt_of_capital letter hcap ha hw
      · apply cutsAt_of_digits
        simpa [capital, hc] using h

theorem letter_eq_other_of_segmentLength {a : α} {l : List α}
    (h : segmentLength letter (a :: l) = none) : letter a = .other := by
  simp only [segmentLength, Option.orElse_eq_orElse, Option.orElse_eq_or, Option.or_eq_none_iff]
    at h
  obtain ⟨-, hword, hcapital, hdigits⟩ := h
  cases ha : letter a with
  | other => rfl
  | capital => simp [capital, ha] at hcapital
  | small => simp [word, run, ha] at hword
  | digit => simp [digits, run, ha] at hdigits

/-- The scan cuts at exactly the marked symbols. -/
theorem marks_eq (l : List α) : marks letter .other l = (segments letter l).flatMap marked := by
  fun_induction segments letter l with
  | case1 => rfl
  | case2 a l n hn ih =>
    obtain ⟨-, -, h⟩ := cutsAt_of_segmentLength letter hn
    simpa [ih] using h
  | case3 a l hn ih =>
    have hother : letter a = .other := by
      cases hs : segmentLength letter (a :: l) with
      | none => exact letter_eq_other_of_segmentLength letter hs
      | some n =>
        have hpos := (cutsAt_of_segmentLength letter hs).1
        exact absurd hs (by simpa [show n - 1 + 1 = n by omega] using hn (n - 1))
    simp [marks, hother, ih]

theorem ne_nil_of_mem_segments {g l : List α} (hg : g ∈ segments letter l) : g ≠ [] := by
  fun_induction segments letter l with
  | case1 => simp at hg
  | case2 a l n hn ih =>
    rcases List.mem_cons.mp hg with rfl | hg
    · simp
    · exact ih hg
  | case3 a l hn ih => exact ih hg

end Cut
end ContentTypes.Casing
