import ContentTypes.Proofs.Casing.Separators
import ContentTypes.Text.Bytes
import Mathlib
/-!
Segments of the bytes that a text is stored in. Every byte has the class of the character it
belongs to, and a letter or digit is one byte. So the bytes are cut into the same segments as the
characters, and bytes of letters and digits that stand together are a part of the text.
-/

namespace ContentTypes.Casing

variable {b : UInt8} {c : Char} {l : List Char}

/-! ### Symbols of segments -/

section Symbols

variable {α : Type} (letter : α → Letter) {a : α} {g m : List α}

/-- Only letters and digits are marked. -/
theorem ne_other_of_mem_marks (h : a ∈ (marks letter .other m).map Prod.fst) :
    letter a ≠ .other := by
  rw [map_fst_marks, List.mem_filter, decide_eq_true_eq] at h
  exact h.2

theorem ne_other_of_mem_segments (hg : g ∈ segments letter m) (ha : a ∈ g) :
    letter a ≠ .other := by
  apply ne_other_of_mem_marks letter (m := m)
  rw [marks_eq, List.map_flatMap, List.mem_flatMap]
  refine ⟨g, hg, ?_⟩
  rwa [map_fst_marked]

/-- A segment in front is not empty, not longer than the text, and of letters and digits. -/
theorem segmentLength_spec {n : Nat} (h : segmentLength letter m = some n) :
    0 < n ∧ n ≤ m.length ∧ ∀ a ∈ m.take n, letter a ≠ .other := by
  obtain ⟨hpos, hle, hmarks⟩ := cutsAt_of_segmentLength letter h
  refine ⟨hpos, hle, ?_⟩
  intro a ha
  apply ne_other_of_mem_marks letter (m := m)
  rw [hmarks, List.map_append, map_fst_marked]
  exact List.mem_append_left _ ha

end Symbols

/-! ### Classes of bytes -/

/-- The byte of a letter or digit. -/
def byteOf (c : Char) : UInt8 :=
  UInt8.ofNat c.toNat

theorem toNat_byteOf (hc : Letter.ofChar c ≠ .other) :
    (byteOf c).toNat = c.toNat ∧ c.toNat < 128 := by
  have hlt : c.toNat < 128 := by
    by_contra hle
    exact hc (ofCode_eq_other_of_le (Nat.not_lt.mp hle))
  refine ⟨?_, hlt⟩
  rw [byteOf, UInt8.toNat_ofNat']
  omega

theorem utf8EncodeChar_of_ne_other (hc : Letter.ofChar c ≠ .other) :
    String.utf8EncodeChar c = [byteOf c] := by
  obtain ⟨hbyte, hlt⟩ := toNat_byteOf hc
  apply utf8EncodeChar_of_ascii _ hbyte.symm
  rw [UInt8.lt_iff_toNat_lt, hbyte]
  exact hlt

theorem ofByte_byteOf (hc : Letter.ofChar c ≠ .other) :
    Letter.ofByte (byteOf c) = Letter.ofChar c := by
  rw [Letter.ofByte, (toNat_byteOf hc).1, Letter.ofChar]

theorem ofByte_of_mem (h : b ∈ String.utf8EncodeChar c) : Letter.ofByte b = Letter.ofChar c := by
  by_cases hc : Letter.ofChar c = .other
  · rw [hc]
    exact ofByte_eq_other (fun halnum => ofChar_ne_other_iff.mpr halnum hc) b h
  · rw [utf8EncodeChar_of_ne_other hc, List.mem_singleton] at h
    rw [h, ofByte_byteOf hc]

theorem lt_of_ofByte_ne_other (h : Letter.ofByte b ≠ .other) : b < 128 := by
  by_contra hb
  have hle : 128 ≤ b.toNat := Nat.not_lt.mp hb
  exact h (ofCode_eq_other_of_le hle)

/-! ### Segments -/

/-- The bytes of a text. -/
def bytes (l : List Char) : List UInt8 :=
  l.flatMap String.utf8EncodeChar

theorem bytes_injective : Function.Injective bytes := by
  intro l r h
  have htext : utf8 (String.ofList l) = utf8 (String.ofList r) := by
    simpa [utf8, bytes] using h
  exact String.ofList_injective (utf8_injective htext)

theorem bytes_cons (c : Char) (l : List Char) :
    bytes (c :: l) = String.utf8EncodeChar c ++ bytes l :=
  List.flatMap_cons

theorem bytes_of_ne_other (hl : ∀ c ∈ l, Letter.ofChar c ≠ .other) :
    bytes l = l.map byteOf := by
  induction l with
  | nil => rfl
  | cons c l ih =>
    rw [bytes_cons, utf8EncodeChar_of_ne_other (hl c List.mem_cons_self),
      ih fun d hd => hl d (List.mem_cons_of_mem c hd)]
    rfl

theorem map_head?_bytes (l : List Char) :
    (bytes l).head?.map Letter.ofByte = l.head?.map Letter.ofChar := by
  cases l with
  | nil => rfl
  | cons c l =>
    obtain ⟨b, r, hb⟩ := List.exists_cons_of_ne_nil (String.utf8EncodeChar_ne_nil (c := c))
    have hclass : Letter.ofByte b = Letter.ofChar c := ofByte_of_mem (hb ▸ List.mem_cons_self)
    simp [bytes_cons, hb, hclass]

theorem digitEndsCapitals_of_head? {α : Type} {letter : α → Letter} {l : List α}
    (h : l.head?.map letter ≠ some .capital) :
    digitEndsCapitals letter l = decide (l.head?.map letter = some .digit) := by
  cases l with
  | nil => rfl
  | cons a l =>
    have ha : letter a ≠ .capital := by simpa using h
    simp [digitEndsCapitals, ha]

theorem digitEndsCapitals_bytes (l : List Char) :
    digitEndsCapitals Letter.ofByte (bytes l) = digitEndsCapitals Letter.ofChar l := by
  induction l with
  | nil => rfl
  | cons c l ih =>
    by_cases hc : Letter.ofChar c = .capital
    · have hother : Letter.ofChar c ≠ .other := by simp [hc]
      have hbyte : Letter.ofByte (byteOf c) = .capital := (ofByte_byteOf hother).trans hc
      simpa [digitEndsCapitals, bytes_cons, utf8EncodeChar_of_ne_other hother, hbyte, hc] using ih
    · have hhead : ((c :: l).head?.map Letter.ofChar) ≠ some .capital := by simpa using hc
      rw [digitEndsCapitals_of_head? hhead, ← map_head?_bytes]
      exact digitEndsCapitals_of_head? (map_head?_bytes (c :: l) ▸ hhead)

theorem opens_bytes (before k : Letter) (l : List Char) :
    opens Letter.ofByte before k (bytes l) = opens Letter.ofChar before k l := by
  cases k with
  | capital => rw [opens, opens, map_head?_bytes, digitEndsCapitals_bytes]
  | small => rfl
  | digit => rfl
  | other => rfl

theorem marks_append_others {α : Type} {letter : α → Letter} {m : List α}
    (hm : ∀ a ∈ m, letter a = .other) (hne : m ≠ []) (before : Letter) (l : List α) :
    marks letter before (m ++ l) = marks letter .other l := by
  induction m generalizing before with
  | nil => exact absurd rfl hne
  | cons a m ih =>
    have ha : letter a = .other := hm a List.mem_cons_self
    by_cases hnil : m = []
    · simp [hnil, marks, ha]
    · have hrest := ih (fun x hx => hm x (List.mem_cons_of_mem a hx)) hnil .other
      simpa [marks, ha] using hrest

theorem marks_bytes (before : Letter) (l : List Char) :
    marks Letter.ofByte before (bytes l)
      = (marks Letter.ofChar before l).map fun m => (byteOf m.1, m.2) := by
  induction l generalizing before with
  | nil => rfl
  | cons c l ih =>
    by_cases hc : Letter.ofChar c = .other
    · have hbytes : ∀ b ∈ String.utf8EncodeChar c, Letter.ofByte b = .other :=
        fun b hb => (ofByte_of_mem hb).trans hc
      rw [bytes_cons, marks_append_others hbytes String.utf8EncodeChar_ne_nil, ih, marks, if_pos hc]
    · have hbyte : Letter.ofByte (byteOf c) = Letter.ofChar c := ofByte_byteOf hc
      simp [bytes_cons, utf8EncodeChar_of_ne_other hc, marks, hbyte, hc, opens_bytes, ih]

theorem marked_map {α β : Type} (f : α → β) (g : List α) :
    marked (g.map f) = (marked g).map fun m => (f m.1, m.2) := by
  cases g with
  | nil => rfl
  | cons a g => simp [marked, Function.comp_def]

/-- The bytes are cut into the bytes of the segments. -/
theorem segments_bytes (l : List Char) :
    segments Letter.ofByte (bytes l) = (segments Letter.ofChar l).map bytes := by
  have hsegments : ∀ g ∈ segments Letter.ofChar l, bytes g = g.map byteOf :=
    fun g hg => bytes_of_ne_other fun c hc => ne_other_of_mem_segments Letter.ofChar hg hc
  rw [List.map_congr_left hsegments]
  apply eq_of_flatMap_marked
  · exact fun g hg => ne_nil_of_mem_segments Letter.ofByte hg
  · intro g hg
    obtain ⟨g', hg', rfl⟩ := List.mem_map.mp hg
    simpa using ne_nil_of_mem_segments Letter.ofChar hg'
  · simp only [List.flatMap_map, marked_map]
    rw [← marks_eq, marks_bytes, marks_eq, List.map_flatMap]

/-! ### Parts of a text -/

theorem length_bytes (l : List Char) : (bytes l).length = Text.byteCount l := by
  induction l with
  | nil => rfl
  | cons c l ih =>
    rw [bytes_cons, List.length_append, String.length_utf8EncodeChar, ih, Text.byteCount]

theorem byteCount_append (l r : List Char) :
    Text.byteCount (l ++ r) = Text.byteCount l + Text.byteCount r := by
  rw [← length_bytes, bytes, List.flatMap_append, List.length_append, ← length_bytes,
    ← length_bytes]
  rfl

theorem utf8EncodeChar_of_mem (hb : b < 128) (h : b ∈ String.utf8EncodeChar c) :
    String.utf8EncodeChar c = [b] :=
  utf8EncodeChar_of_ascii hb (toNat_eq_of_mem_utf8EncodeChar hb h)

variable {front part rest : List UInt8}

/-- ASCII bytes in front of a text are the characters in front of it. -/
theorem exists_bytes_prefix (hpart : ∀ b ∈ part, b < 128) (h : bytes l = part ++ rest) :
    ∃ p r, l = p ++ r ∧ bytes p = part ∧ bytes r = rest := by
  induction part generalizing l with
  | nil => exact ⟨[], l, rfl, rfl, h⟩
  | cons b part ih =>
    cases l with
    | nil => cases h
    | cons c l =>
      rw [bytes_cons] at h
      have hmem : b ∈ String.utf8EncodeChar c := by
        obtain ⟨b', t, hc⟩ := List.exists_cons_of_ne_nil (String.utf8EncodeChar_ne_nil (c := c))
        rw [hc] at h ⊢
        rw [(List.cons.inj h).1]
        exact List.mem_cons_self
      have hc := utf8EncodeChar_of_mem (hpart b List.mem_cons_self) hmem
      rw [hc] at h
      obtain ⟨p, r, rfl, hp, hr⟩ :=
        ih (fun x hx => hpart x (List.mem_cons_of_mem b hx)) (List.cons.inj h).2
      exact ⟨c :: p, r, rfl, by rw [bytes_cons, hc, hp]; rfl, hr⟩

/-- No character reaches over a place behind which an ASCII byte stands. -/
theorem utf8EncodeChar_prefix_of_ascii {s : List UInt8} (hfront : front ≠ [])
    (hne : part ≠ []) (hpart : ∀ b ∈ part, b < 128)
    (h : String.utf8EncodeChar c ++ s = front ++ (part ++ rest)) :
    ∃ t, front = String.utf8EncodeChar c ++ t ∧ s = t ++ (part ++ rest) := by
  obtain ⟨t, ht, hs⟩ | ⟨t, hc, hs⟩ := List.append_eq_append_iff.mp h
  · exact ⟨t, ht, hs⟩
  · cases t with
    | nil => exact ⟨[], by simpa using hc.symm, hs.symm⟩
    | cons b t =>
      obtain ⟨b', part, rfl⟩ := List.exists_cons_of_ne_nil hne
      have hb : b' = b := (List.cons.inj hs).1
      have hone : String.utf8EncodeChar c = [b] :=
        utf8EncodeChar_of_mem (hb ▸ hpart b' List.mem_cons_self) (by simp [hc])
      have hlength := congrArg List.length (hc.symm.trans hone)
      have hpos := List.length_pos_iff.mpr hfront
      simp at hlength
      omega

/-- ASCII bytes that stand together anywhere in a text are a part of it. -/
theorem exists_bytes_infix (hne : part ≠ []) (hpart : ∀ b ∈ part, b < 128)
    (h : bytes l = front ++ (part ++ rest)) :
    ∃ f p r, l = f ++ p ++ r ∧ bytes f = front ∧ bytes p = part ∧ bytes r = rest := by
  induction l generalizing front with
  | nil =>
    have hnil := h.symm
    simp [bytes, hne] at hnil
  | cons c l ih =>
    by_cases hfront : front = []
    · subst hfront
      obtain ⟨p, r, hl, hp, hr⟩ := exists_bytes_prefix hpart h
      exact ⟨[], p, r, hl, rfl, hp, hr⟩
    · rw [bytes_cons] at h
      obtain ⟨t, rfl, hrest⟩ := utf8EncodeChar_prefix_of_ascii hfront hne hpart h
      obtain ⟨f, p, r, rfl, hf, hp, hr⟩ := ih hrest
      exact ⟨c :: f, p, r, rfl, by rw [bytes_cons, hf], hp, hr⟩

end ContentTypes.Casing
