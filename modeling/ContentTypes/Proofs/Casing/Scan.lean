import ContentTypes.Proofs.Casing.Acronyms
import ContentTypes.Proofs.Casing.Bytes
import Mathlib
/-!
The cut by places. The four rules are tried on the bytes of a text, at places that are counted from
its start, and each access to a byte, to what follows a place or to a part of the text is checked.
Where no rule applies the scan moves on by a single byte, also through the inside of a character;
the main statement is `scan_stays_in_range`: no check fails, and the segments are those that are cut
out of the text without any places.
-/

namespace ContentTypes.Casing.Scan

/-! ### The four rules -/

/-- What an access asks for and the text does not have. -/
inductive Fault where
  | byte (place : Nat)
  | rest (place : Nat)
  | part (start stop : Nat)
  deriving DecidableEq, Repr

section Rules

variable (bs : List UInt8) (place : Nat)

def byteAt : Except Fault UInt8 :=
  match bs[place]? with
  | some b => .ok b
  | none => .error (.byte place)

def restFrom : Except Fault (List UInt8) :=
  if place ≤ bs.length then .ok (bs.drop place) else .error (.rest place)

def run (k : Letter) : Except Fault Nat := do
  let rest ← restFrom bs place
  return Casing.run Letter.ofByte k rest

/-- The end of the text is a boundary too, so this is no access that can fail. -/
def isBoundary : Bool :=
  bs[place]?.all fun b => Letter.ofByte b = .other

def stopsAcronym : Except Fault Bool := do
  if isBoundary bs place then
    return true
  let b ← byteAt bs place
  return Letter.ofByte b = .capital && bs[place + 1]?.any fun c => Letter.ofByte c = .small

def acronym : Except Fault (Option Nat) := do
  let k ← run bs place .capital
  ((candidates k).map (place + ·)).findM? (stopsAcronym bs)

/-- At least one small letter, and the digits behind. -/
def letters : Except Fault (Option Nat) := do
  match ← run bs place .small with
  | 0 => return none
  | n + 1 =>
    let more ← run bs (place + (n + 1)) .digit
    return some (place + (n + 1) + more)

def word : Except Fault (Option Nat) := do
  let b ← byteAt bs place
  letters bs (if Letter.ofByte b = .capital then place + 1 else place)

def capital : Except Fault (Option Nat) := do
  let b ← byteAt bs place
  return if Letter.ofByte b = .capital then some (place + 1) else none

def digits : Except Fault (Option Nat) := do
  match ← run bs place .digit with
  | 0 => return none
  | n + 1 => return some (place + (n + 1))

/-- The place that the first rule gives, and that of the second where the first does not apply. -/
def firstOf (first second : Except Fault (Option Nat)) : Except Fault (Option Nat) := do
  match ← first with
  | some stop => return some stop
  | none => second

/-- Where the segment that starts at a place ends, by the first rule that applies. -/
def matchAt : Except Fault (Option Nat) :=
  firstOf (acronym bs place)
    (firstOf (word bs place) (firstOf (capital bs place) (digits bs place)))

end Rules

/-! ### The rules stay in range -/

section InRange

variable {bs : List UInt8} {place : Nat}

theorem byteAt_of_lt (h : place < bs.length) : byteAt bs place = .ok bs[place] := by
  rw [byteAt, List.getElem?_eq_getElem h]

theorem run_of_le (h : place ≤ bs.length) (k : Letter) :
    run bs place k = .ok (Casing.run Letter.ofByte k (bs.drop place)) := by
  rw [run, restFrom, if_pos h]
  rfl

/-- The byte that ends a run is read only if there is one. -/
theorem stopsAcronym_eq (bs : List UInt8) (place : Nat) :
    stopsAcronym bs place = .ok (Casing.stopsAcronym Letter.ofByte (bs.drop place)) := by
  by_cases h : place < bs.length
  · rw [stopsAcronym, isBoundary, byteAt_of_lt h, List.getElem?_eq_getElem h,
      List.drop_eq_getElem_cons h, ← List.head?_drop]
    cases hb : Letter.ofByte bs[place] <;> cases bs.drop (place + 1) <;>
      simp [Casing.stopsAcronym, hb, bind, Except.bind, pure, Except.pure]
  · rw [stopsAcronym, isBoundary, List.getElem?_eq_none (by omega),
      List.drop_eq_nil_of_le (by omega)]
    rfl

theorem acronym_of_le (h : place ≤ bs.length) :
    acronym bs place
      = .ok ((Casing.acronym Letter.ofByte 0 (bs.drop place)).map (place + ·)) := by
  have hstops : stopsAcronym bs = fun stop =>
      pure (Casing.stopsAcronym Letter.ofByte (bs.drop stop)) := funext (stopsAcronym_eq bs)
  have hrun := run_of_le h .capital
  simp only [acronym, hrun, hstops, List.findM?_pure, List.find?_map, acronym_eq_find?,
    List.drop_drop, Function.comp_def]
  rfl

theorem letters_of_le (h : place ≤ bs.length) :
    letters bs place = .ok (match Casing.run Letter.ofByte .small (bs.drop place) with
      | 0 => none
      | n + 1 => some (place + (n + 1)
          + Casing.run Letter.ofByte .digit (bs.drop (place + (n + 1))))) := by
  rw [letters, run_of_le h]
  cases hn : Casing.run Letter.ofByte .small (bs.drop place) with
  | zero => rfl
  | succ n =>
    have hrun := run_le_length Letter.ofByte .small (bs.drop place)
    rw [hn, List.length_drop] at hrun
    have hdigit := run_of_le (by omega : place + (n + 1) ≤ bs.length) .digit
    simp only [bind, Except.bind, hdigit]
    rfl

theorem head?_drop_of_lt (h : place < bs.length) : (bs.drop place).head? = some bs[place] := by
  rw [List.head?_drop, List.getElem?_eq_getElem h]

theorem word_of_lt (h : place < bs.length) :
    word bs place = .ok ((Casing.word Letter.ofByte (bs.drop place)).map (place + ·)) := by
  rw [word, byteAt_of_lt h, Casing.word, head?_drop_of_lt h]
  by_cases hb : Letter.ofByte bs[place] = .capital
  · simp only [hb, bind, Except.bind, if_true, letters_of_le (Nat.succ_le_of_lt h), List.drop_drop,
      Option.map_some]
    cases Casing.run Letter.ofByte .small (bs.drop (place + 1)) with
    | zero => rfl
    | succ n => simp [Nat.add_assoc]
  · simp only [hb, bind, Except.bind, if_false, letters_of_le h.le, Option.map_some,
      Option.some.injEq, List.drop_drop, Nat.zero_add]
    cases Casing.run Letter.ofByte .small (bs.drop place) with
    | zero => rfl
    | succ n => simp [Nat.add_assoc]

theorem capital_of_lt (h : place < bs.length) :
    capital bs place = .ok ((Casing.capital Letter.ofByte (bs.drop place)).map (place + ·)) := by
  rw [capital, byteAt_of_lt h, Casing.capital, head?_drop_of_lt h]
  by_cases hb : Letter.ofByte bs[place] = .capital <;>
    simp [hb, bind, Except.bind, pure, Except.pure]

theorem digits_of_le (h : place ≤ bs.length) :
    digits bs place = .ok ((Casing.digits Letter.ofByte (bs.drop place)).map (place + ·)) := by
  rw [digits, run_of_le h, Casing.digits]
  cases Casing.run Letter.ofByte .digit (bs.drop place) <;> rfl

theorem firstOf_ok (a b : Option Nat) : firstOf (.ok a) (.ok b) = .ok (a <|> b) := by
  cases a <;> rfl

/-- At every place in front of the end the rules are tried without a fault. -/
theorem matchAt_of_lt (h : place < bs.length) :
    matchAt bs place = .ok ((segmentLength Letter.ofByte (bs.drop place)).map (place + ·)) := by
  rw [matchAt, acronym_of_le h.le, word_of_lt h, capital_of_lt h, digits_of_le h.le, firstOf_ok,
    firstOf_ok, firstOf_ok, segmentLength]
  simp only [Option.orElse_eq_orElse, Option.orElse_eq_or, Option.map_or]

end InRange

/-! ### The loop -/

/-- A part of a text with the places where it starts and stops. -/
structure Piece where
  start : Nat
  stop : Nat
  text : List Char
  deriving DecidableEq, Repr

namespace Piece

def span (p : Piece) : Nat × Nat :=
  (p.start, p.stop)

/-- The piece stands in the text between its places, and both are between characters. -/
def IsPartOf (s : String) (p : Piece) : Prop :=
  ∃ front rest, s.toList = front ++ p.text ++ rest ∧ Text.byteCount front = p.start ∧
    Text.byteCount (front ++ p.text) = p.stop

end Piece

def pieceAt (s : String) (start stop : Nat) : Except Fault Piece :=
  match if start ≤ stop then Text.cut? s.toList start stop else none with
  | some text => .ok ⟨start, stop, text⟩
  | none => .error (.part start stop)

/-- How far the scan of a text has come. -/
structure Progress where
  place : Nat
  pieces : List Piece

/-- One turn of the loop. -/
def step (s : String) (p : Progress) : Except Fault Progress := do
  match ← matchAt (utf8 s) p.place with
  | some stop =>
    let piece ← pieceAt s p.place stop
    return ⟨stop, p.pieces ++ [piece]⟩
  | none => return ⟨p.place + 1, p.pieces⟩

/-- At most `n` turns, and no more once the place is at the end of the text. -/
def turns (s : String) : Nat → Progress → Except Fault Progress
  | 0, p => .ok p
  | n + 1, p =>
    if p.place < (utf8 s).length then do
      let p ← step s p
      turns s n p
    else .ok p

section Loop

variable {s : String} {place : Nat}

/-- A segment is cut out of the text, also where the place was reached through the inside of
characters. -/
theorem exists_pieceAt {n : Nat}
    (h : segmentLength Letter.ofByte ((utf8 s).drop place) = some n) :
    ∃ p, pieceAt s place (place + n) = .ok p ∧ p.span = (place, place + n) ∧ p.IsPartOf s ∧
      bytes p.text = ((utf8 s).drop place).take n := by
  obtain ⟨hpos, hle, hletters⟩ := segmentLength_spec Letter.ofByte h
  rw [List.length_drop] at hle
  have hne : ((utf8 s).drop place).take n ≠ [] := by
    rw [← List.length_pos_iff, List.length_take, List.length_drop]
    omega
  have hascii : ∀ b ∈ ((utf8 s).drop place).take n, b < 128 :=
    fun b hb => lt_of_ofByte_ne_other (hletters b hb)
  have hsplit : bytes s.toList = (utf8 s).take place
      ++ (((utf8 s).drop place).take n ++ ((utf8 s).drop place).drop n) := by
    rw [List.take_append_drop, List.take_append_drop]
    rfl
  obtain ⟨front, text, rest, hs, hfront, htext, -⟩ := exists_bytes_infix hne hascii hsplit
  have hstart : Text.byteCount front = place := by
    rw [← length_bytes, hfront, List.length_take]
    omega
  have hlength : Text.byteCount text = n := by
    rw [← length_bytes, htext, List.length_take, List.length_drop]
    omega
  refine ⟨⟨place, place + n, text⟩, ?_, rfl, ⟨front, rest, hs, hstart, ?_⟩, htext⟩
  · have hcut := Text.cut?_append front text rest
    rw [← hs, hstart, hlength] at hcut
    rw [pieceAt, if_pos (by omega), hcut]
  · rw [byteCount_append, hstart, hlength]

/-- What is cut out between two places, and that the segments go on behind. -/
structure Cuts (s : String) (start stop : Nat) (ps : List Piece) : Prop where
  parts : ∀ p ∈ ps, p.IsPartOf s
  spans_eq : spans Letter.ofByte start ((utf8 s).drop start)
    = ps.map Piece.span ++ spans Letter.ofByte stop ((utf8 s).drop stop)
  segments_eq : segments Letter.ofByte ((utf8 s).drop start)
    = ps.map (fun p => bytes p.text) ++ segments Letter.ofByte ((utf8 s).drop stop)

namespace Cuts

theorem refl (s : String) (place : Nat) : Cuts s place place [] :=
  ⟨by simp, rfl, rfl⟩

theorem trans {start middle stop : Nat} {ps qs : List Piece} (h : Cuts s start middle ps)
    (h' : Cuts s middle stop qs) : Cuts s start stop (ps ++ qs) where
  parts := by
    intro p hp
    rcases List.mem_append.mp hp with hp | hp
    · exact h.parts p hp
    · exact h'.parts p hp
  spans_eq := by rw [h.spans_eq, h'.spans_eq, List.map_append, List.append_assoc]
  segments_eq := by rw [h.segments_eq, h'.segments_eq, List.map_append, List.append_assoc]

/-- Where no segment starts nothing is cut out. -/
theorem of_none (hplace : place < (utf8 s).length)
    (h : segmentLength Letter.ofByte ((utf8 s).drop place) = none) :
    Cuts s place (place + 1) [] := by
  rw [List.drop_eq_getElem_cons hplace] at h
  refine ⟨by simp, ?_, ?_⟩
  · rw [List.drop_eq_getElem_cons hplace, spans, h]
    rfl
  · rw [List.drop_eq_getElem_cons hplace, segments, h]
    rfl

theorem of_some {n : Nat} {p : Piece}
    (h : segmentLength Letter.ofByte ((utf8 s).drop place) = some n)
    (hspan : p.span = (place, place + n)) (hpart : p.IsPartOf s)
    (htext : bytes p.text = ((utf8 s).drop place).take n) :
    Cuts s place (place + n) [p] := by
  obtain ⟨hpos, hle, -⟩ := segmentLength_spec Letter.ofByte h
  rw [List.length_drop] at hle
  have hplace : place < (utf8 s).length := by omega
  obtain ⟨m, rfl⟩ : ∃ m, n = m + 1 := ⟨n - 1, by omega⟩
  have hrest : ((utf8 s).drop (place + 1)).drop m = (utf8 s).drop (place + (m + 1)) := by
    rw [List.drop_drop, Nat.add_assoc, Nat.add_comm 1]
  rw [List.drop_eq_getElem_cons hplace] at h htext
  refine ⟨by simpa using hpart, ?_, ?_⟩
  · rw [List.drop_eq_getElem_cons hplace, spans, h]
    simp only [hrest, hspan, List.map_cons, List.map_nil, List.cons_append, List.nil_append]
  · rw [List.drop_eq_getElem_cons hplace, segments, h]
    simp only [hrest, htext, List.take_succ_cons, List.map_cons, List.map_nil, List.cons_append,
      List.nil_append]

theorem spans_of_end {ps : List Piece} (h : Cuts s 0 (utf8 s).length ps) :
    spans Letter.ofByte 0 (utf8 s) = ps.map Piece.span := by
  have hspans := h.spans_eq
  rwa [List.drop_zero, List.drop_length, spans, List.append_nil] at hspans

theorem segments_of_end {ps : List Piece} (h : Cuts s 0 (utf8 s).length ps) :
    segments Letter.ofByte (utf8 s) = ps.map fun p => bytes p.text := by
  have hsegments := h.segments_eq
  rwa [List.drop_zero, List.drop_length, segments, List.append_nil] at hsegments

end Cuts

/-- A turn in front of the end moves on, not over the end, and cuts out what is there. -/
theorem step_of_lt {p : Progress} (h : p.place < (utf8 s).length) :
    ∃ place ps, step s p = .ok ⟨place, p.pieces ++ ps⟩ ∧ p.place < place ∧
      place ≤ (utf8 s).length ∧ Cuts s p.place place ps := by
  cases hn : segmentLength Letter.ofByte ((utf8 s).drop p.place) with
  | none =>
    refine ⟨p.place + 1, [], ?_, by omega, h, Cuts.of_none h hn⟩
    rw [step, matchAt_of_lt h, hn, List.append_nil]
    rfl
  | some n =>
    obtain ⟨piece, hpiece, hspan, hpart, htext⟩ := exists_pieceAt hn
    obtain ⟨hpos, hle, -⟩ := segmentLength_spec Letter.ofByte hn
    rw [List.length_drop] at hle
    refine ⟨p.place + n, [piece], ?_, by omega, by omega, Cuts.of_some hn hspan hpart htext⟩
    rw [step, matchAt_of_lt h, hn]
    simp [hpiece, bind, Except.bind, pure, Except.pure]

/-- With a turn for each byte that is left the scan comes to the end, and it stops there. -/
theorem turns_of_le {n : Nat} {p : Progress} (hp : p.place ≤ (utf8 s).length)
    (hn : (utf8 s).length ≤ p.place + n) :
    ∃ ps, turns s n p = .ok ⟨(utf8 s).length, p.pieces ++ ps⟩ ∧
      Cuts s p.place (utf8 s).length ps := by
  induction n generalizing p with
  | zero =>
    have hend : p.place = (utf8 s).length := by omega
    refine ⟨[], ?_, hend ▸ Cuts.refl s _⟩
    rw [turns, List.append_nil, ← hend]
  | succ n ih =>
    rw [turns]
    by_cases h : p.place < (utf8 s).length
    · obtain ⟨place, ps, hstep, hlt, hle, hcuts⟩ := step_of_lt h
      obtain ⟨qs, hturns, hcuts'⟩ := ih (p := ⟨place, p.pieces ++ ps⟩) hle (by simp only; omega)
      refine ⟨ps ++ qs, ?_, hcuts.trans hcuts'⟩
      rw [if_pos h, hstep]
      simpa [bind, Except.bind] using hturns
    · have hend : p.place = (utf8 s).length := by omega
      refine ⟨[], ?_, hend ▸ Cuts.refl s _⟩
      rw [if_neg h, List.append_nil, ← hend]

end Loop

/-- No access that the scan of a text makes is out of range. In front of the end every rule can be
tried at every place, also inside a character, with the outcome that it has on the rest of the
bytes; a segment that starts there is not empty, ends at the end of the text or in front of it, and
reaches from one place between characters to another. Every turn moves on, so after as many turns
as there are bytes the scan has come to the end, with the segments of the text as its pieces. -/
theorem scan_stays_in_range (s : String) :
    (∀ place < (utf8 s).length,
      acronym (utf8 s) place
          = .ok ((Casing.acronym Letter.ofByte 0 ((utf8 s).drop place)).map (place + ·)) ∧
        word (utf8 s) place
          = .ok ((Casing.word Letter.ofByte ((utf8 s).drop place)).map (place + ·)) ∧
        capital (utf8 s) place
          = .ok ((Casing.capital Letter.ofByte ((utf8 s).drop place)).map (place + ·)) ∧
        digits (utf8 s) place
          = .ok ((Casing.digits Letter.ofByte ((utf8 s).drop place)).map (place + ·)) ∧
        matchAt (utf8 s) place
          = .ok ((segmentLength Letter.ofByte ((utf8 s).drop place)).map (place + ·)) ∧
        ∀ stop, matchAt (utf8 s) place = .ok (some stop) →
          place < stop ∧ stop ≤ (utf8 s).length ∧
            ∃ p, pieceAt s place stop = .ok p ∧ p.span = (place, stop) ∧ p.IsPartOf s) ∧
    (∀ p : Progress, p.place < (utf8 s).length →
      ∃ q, step s p = .ok q ∧ p.place < q.place ∧ q.place ≤ (utf8 s).length) ∧
    ∀ n, (utf8 s).length ≤ n → ∃ pieces,
      turns s n ⟨0, []⟩ = .ok ⟨(utf8 s).length, pieces⟩ ∧ (∀ p ∈ pieces, p.IsPartOf s) ∧
        pieces.map Piece.span = spans Letter.ofByte 0 (utf8 s) ∧
        pieces.map Piece.text = segments Letter.ofChar s.toList := by
  refine ⟨?rules, ?turn, ?run⟩
  case rules =>
    intro place h
    refine ⟨acronym_of_le h.le, word_of_lt h, capital_of_lt h, digits_of_le h.le, matchAt_of_lt h,
      ?_⟩
    intro stop hstop
    rw [matchAt_of_lt h] at hstop
    obtain ⟨n, hn, rfl⟩ := Option.map_eq_some_iff.mp (Except.ok.inj hstop)
    obtain ⟨hpos, hle, -⟩ := segmentLength_spec Letter.ofByte hn
    rw [List.length_drop] at hle
    obtain ⟨p, hp, hspan, hpart, -⟩ := exists_pieceAt hn
    exact ⟨by omega, by omega, p, hp, hspan, hpart⟩
  case turn =>
    intro p h
    obtain ⟨place, ps, hstep, hlt, hle, -⟩ := step_of_lt h
    exact ⟨_, hstep, hlt, hle⟩
  case run =>
    intro n hn
    obtain ⟨pieces, hturns, hcuts⟩ :=
      turns_of_le (p := ⟨0, []⟩) (Nat.zero_le _) (by simpa using hn)
    refine ⟨pieces, hturns, hcuts.parts, hcuts.spans_of_end.symm, ?_⟩
    have hsegments := hcuts.segments_of_end
    have hbytes : utf8 s = bytes s.toList := rfl
    rw [hbytes, segments_bytes] at hsegments
    apply bytes_injective.list_map
    rw [hsegments, List.map_map]
    rfl

/-- A text that starts with a character of two bytes; a turn that starts inside that character finds
nothing there and moves on, and the acronym behind it is cut in front of the word. -/
theorem scan_of_accented :
    (utf8 "éHTMLPage2").length = 11 ∧
      matchAt (utf8 "éHTMLPage2") 1 = .ok none ∧
      (∃ q, step "éHTMLPage2" ⟨1, []⟩ = .ok q ∧ 1 < q.place ∧ q.place ≤ 11) ∧
      matchAt (utf8 "éHTMLPage2") 2 = .ok (some 6) ∧
      (∃ p, pieceAt "éHTMLPage2" 2 6 = .ok p ∧ p.span = (2, 6) ∧ p.IsPartOf "éHTMLPage2") ∧
      ∃ pieces, turns "éHTMLPage2" 11 ⟨0, []⟩ = .ok ⟨11, pieces⟩ ∧
        pieces.map Piece.span = [(2, 6), (6, 11)] ∧
        pieces.map Piece.text = [['H', 'T', 'M', 'L'], ['P', 'a', 'g', 'e', '2']] ∧
        ∃ p ∈ pieces, p.text = ['P', 'a', 'g', 'e', '2'] ∧ p.IsPartOf "éHTMLPage2" := by
  obtain ⟨hrules, hturn, hrun⟩ := scan_stays_in_range "éHTMLPage2"
  have hlength : (utf8 "éHTMLPage2").length = 11 := by decide
  have hinside : matchAt (utf8 "éHTMLPage2") 1 = .ok none := by rfl
  have hmatch : matchAt (utf8 "éHTMLPage2") 2 = .ok (some 6) := by rfl
  obtain ⟨-, -, -, -, -, hstop⟩ := hrules 2 (by rw [hlength]; decide)
  obtain ⟨-, -, hpiece⟩ := hstop 6 hmatch
  obtain ⟨pieces, hturns, hparts, hspans, htexts⟩ := hrun 11 hlength.le
  have hspans' : spans Letter.ofByte 0 (utf8 "éHTMLPage2") = [(2, 6), (6, 11)] := by cbv
  have hsegments : segments Letter.ofChar "éHTMLPage2".toList
      = [['H', 'T', 'M', 'L'], ['P', 'a', 'g', 'e', '2']] := by cbv
  rw [hlength] at hturns hturn
  rw [hspans'] at hspans
  rw [hsegments] at htexts
  have hpage : ['P', 'a', 'g', 'e', '2'] ∈ pieces.map Piece.text := by simp [htexts]
  obtain ⟨p, hp, htext⟩ := List.mem_map.mp hpage
  exact ⟨hlength, hinside, hturn ⟨1, []⟩ (by decide), hmatch, hpiece, pieces, hturns, hspans,
    htexts, p, hp, htext, hparts p hp⟩

end ContentTypes.Casing.Scan
