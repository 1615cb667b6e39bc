import ContentTypes.Layout
import ContentTypes.Text.Hex
import Mathlib
/-!
Enumerations as alternatives of string literals. A reader of the emitted types takes what stands
between two double quotes for a text in UTF-16, where a backslash starts an escape and no line ends.
The values of an enumeration are written between their quotes as they are, so they are read back if
and only if none of them has a quote, a backslash or the end of a line in it.
-/

namespace ContentTypes
namespace Literal

/-! ### Texts in UTF-16 -/

/-- The units of a code point; one beyond the first plane has two. -/
def unitsOf (n : Nat) : List Nat :=
  if n < 0x10000 then [n] else [0xD800 + (n - 0x10000) / 0x400, 0xDC00 + (n - 0x10000) % 0x400]

def utf16 (l : List Char) : List Nat :=
  l.flatMap fun c => unitsOf c.toNat

theorem utf16_cons (c : Char) (l : List Char) : utf16 (c :: l) = unitsOf c.toNat ++ utf16 l :=
  List.flatMap_cons

theorem utf16_append (l m : List Char) : utf16 (l ++ m) = utf16 l ++ utf16 m :=
  List.flatMap_append

theorem length_unitsOf_bounds (n : Nat) : 0 < (unitsOf n).length ∧ (unitsOf n).length ≤ 2 := by
  rw [unitsOf]
  split_ifs <;> simp

theorem length_le_length_utf16 (l : List Char) : l.length ≤ (utf16 l).length := by
  induction l with
  | nil => simp
  | cons c l ih =>
    have hpos := (length_unitsOf_bounds c.toNat).1
    rw [utf16_cons, List.length_cons, List.length_append]
    omega

theorem eq_of_unitsOf_append {c d : Char} {us vs : List Nat}
    (h : unitsOf c.toNat ++ us = unitsOf d.toNat ++ vs) : c = d ∧ us = vs := by
  have hc : c.toNat < 0xD800 ∨ 0xDFFF < c.toNat ∧ c.toNat < 0x110000 := c.valid
  have hd : d.toNat < 0xD800 ∨ 0xDFFF < d.toNat ∧ d.toNat < 0x110000 := d.valid
  rw [← Char.toNat_inj]
  rw [unitsOf, unitsOf] at h
  split_ifs at h
  · simp only [List.singleton_append, List.cons.injEq] at h
    exact h
  · simp only [List.cons_append, List.cons.injEq] at h
    omega
  · simp only [List.cons_append, List.cons.injEq] at h
    omega
  · simp only [List.nil_append, List.cons_append, List.cons.injEq] at h
    exact ⟨by omega, h.2.2⟩

theorem utf16_injective : Function.Injective utf16 := by
  intro l m h
  induction l generalizing m with
  | nil =>
    have hlen := length_le_length_utf16 m
    rw [← h] at hlen
    exact (List.length_eq_zero_iff.mp (Nat.le_zero.mp hlen)).symm
  | cons c l ih =>
    cases m with
    | nil =>
      have hlen := length_le_length_utf16 (c :: l)
      rw [h] at hlen
      exact absurd hlen (by simp [utf16])
    | cons d m =>
      rw [utf16_cons, utf16_cons] at h
      obtain ⟨rfl, hrest⟩ := eq_of_unitsOf_append h
      rw [ih hrest]

/-! ### Reading literals -/

/-- Escapes of one letter and the code points that they stand for. -/
def letterEscapes : List (Char × Nat) :=
  [('b', 8), ('t', 9), ('n', 10), ('v', 11), ('f', 12), ('r', 13)]

/-- What may follow a backslash at the end of a line. Only the first two end a literal. -/
def isLineEnd (c : Char) : Bool :=
  c = '\n' || c = '\r' || c.toNat = 0x2028 || c.toNat = 0x2029

/-- The number that hexadecimal digits spell. -/
def hexNumber? (l : List Char) : Option Nat :=
  (l.mapM Text.hexValue?).map fun ds => ds.foldl (fun n d => 16 * n + d) 0

/-- The number that the first `k` characters spell, if there are as many. -/
def fixedHex? (k : Nat) (l : List Char) : Option Nat :=
  if k ≤ l.length then hexNumber? (l.take k) else none

/-- The code point between braces at the front, with the number of its digits. -/
def bracedHex? (l : List Char) : Option (Nat × Nat) :=
  let digits := l.tail.takeWhile (· ≠ '\x7d')
  if l.head? = some '\x7b' ∧ digits ≠ [] ∧ digits.length < l.tail.length then
    ((hexNumber? digits).filter (· ≤ 0x10FFFF)).map fun n => (n, digits.length)
  else none

/-- What a backslash in front of a text stands for, and how many characters of the text belong to
the escape. Behind a line end it stands for nothing, and behind most characters for these. -/
def escape? : List Char → Option (List Nat × Nat)
  | [] => none
  | c :: r =>
    match Table.get? c letterEscapes with
    | some n => some ([n], 1)
    | none =>
      if c = '0' then if r.head?.any Char.isDigit then none else some ([0], 1)
      else if c = 'x' then (fixedHex? 2 r).map fun n => ([n], 3)
      else if c = 'u' then
        match bracedHex? r with
        | some (n, k) => some (unitsOf n, k + 3)
        | none => (fixedHex? 4 r).map fun n => ([n], 5)
      else if c = '\r' ∧ r.head? = some '\n' then some ([], 2)
      else if isLineEnd c then some ([], 1)
      else if c.isDigit then none
      else some (unitsOf c.toNat, 1)

/-- The text up to the quote that ends a literal, and what stands behind that quote. -/
def body? (l : List Char) : Option (List Nat × List Char) :=
  match l with
  | [] => none
  | c :: r =>
    if c = '"' then some ([], r)
    else if c = '\\' then
      match escape? r with
      | none => none
      | some (us, n) => (body? (r.drop n)).map fun p => (us ++ p.1, p.2)
    else if c = '\n' ∨ c = '\r' then none
    else (body? r).map fun p => (unitsOf c.toNat ++ p.1, p.2)
termination_by l.length
decreasing_by
  all_goals simp

/-! ### What literals stand for -/

/-- A character that stands for itself in a literal. -/
def IsPlain (c : Char) : Prop :=
  c ≠ '"' ∧ c ≠ '\\' ∧ c ≠ '\n' ∧ c ≠ '\r'

/-- What a text between quotes can stand for: no more units than it has, and as many only where it
stands for itself. -/
def Decodes (b : List Char) (us : List Nat) : Prop :=
  us.length ≤ (utf16 b).length ∧
    (us.length = (utf16 b).length → us = utf16 b ∧ ∀ c ∈ b, IsPlain c)

theorem head?_of_bracedHex? {l : List Char} {n k : Nat} (h : bracedHex? l = some (n, k)) :
    l.head? = some '\x7b' := by
  simp only [bracedHex?] at h
  split_ifs at h with hl
  exact hl.1

theorem length_utf16_take_pos (c : Char) (r : List Char) (k : Nat) :
    0 < (utf16 ((c :: r).take (k + 1))).length := by
  have hunits := (length_unitsOf_bounds c.toNat).1
  rw [List.take_succ_cons, utf16_cons, List.length_append]
  omega

/-- An escape stands for no more units than the text behind its backslash has. -/
theorem length_escape?_le {r : List Char} {us : List Nat} {n : Nat}
    (h : escape? r = some (us, n)) : us.length ≤ (utf16 (r.take n)).length := by
  cases r with
  | nil => cases h
  | cons c r =>
    rw [escape?] at h
    split at h
    · cases h
      exact length_utf16_take_pos c r 0
    · split_ifs at h with hnull hdigit hx hu hbreak hend
      · cases h
        exact length_utf16_take_pos c r 0
      · obtain ⟨m, -, hm⟩ := Option.map_eq_some_iff.mp h
        cases hm
        exact length_utf16_take_pos c r 2
      · split at h
        · next m k hbraced =>
          -- A code point in braces has up to two units, and the brace itself is one more.
          cases h
          obtain ⟨t, rfl⟩ := List.head?_eq_some_iff.mp (head?_of_bracedHex? hbraced)
          have hunits := (length_unitsOf_bounds m).2
          have hbrace : 0 < (utf16 (('\x7b' :: t).take (k + 2))).length :=
            length_utf16_take_pos _ t (k + 1)
          have hletter := (length_unitsOf_bounds c.toNat).1
          rw [List.take_succ_cons, utf16_cons, List.length_append]
          omega
        · obtain ⟨m, -, hm⟩ := Option.map_eq_some_iff.mp h
          cases hm
          exact length_utf16_take_pos c r 4
      · cases h
        exact Nat.zero_le _
      · cases h
        exact Nat.zero_le _
      · cases h
        simp [utf16]

theorem Decodes.nil : Decodes [] [] := by
  simp [Decodes, utf16]

/-- A character that stands for itself in front of a text. -/
theorem Decodes.plain {c : Char} {b : List Char} {us : List Nat} (hc : IsPlain c)
    (h : Decodes b us) : Decodes (c :: b) (unitsOf c.toNat ++ us) := by
  obtain ⟨hle, heq⟩ := h
  rw [Decodes, utf16_cons, List.length_append, List.length_append]
  refine ⟨by omega, fun hlen => ?_⟩
  obtain ⟨hus, hplain⟩ := heq (by omega)
  exact ⟨by rw [hus], List.forall_mem_cons.mpr ⟨hc, hplain⟩⟩

/-- An escape in front of a text: fewer units than are written. -/
theorem Decodes.escape {e b : List Char} {us vs : List Nat} (he : us.length ≤ (utf16 e).length)
    (h : Decodes b vs) : Decodes ('\\' :: e ++ b) (us ++ vs) := by
  have hle := h.1
  have hslash := (length_unitsOf_bounds '\\'.toNat).1
  rw [Decodes, utf16_append, utf16_cons]
  simp only [List.length_append]
  omega

theorem exists_of_body? {l rest : List Char} {us : List Nat} (h : body? l = some (us, rest)) :
    ∃ b, l = b ++ '"' :: rest ∧ Decodes b us := by
  fun_induction body? l generalizing us with
  | case1 => cases h
  | case2 r =>
    cases h
    exact ⟨[], rfl, Decodes.nil⟩
  | case3 => cases h
  | case4 r vs n hescape hquote ih =>
    obtain ⟨⟨ws, r'⟩, hbody, hp⟩ := Option.map_eq_some_iff.mp h
    cases hp
    obtain ⟨b, hb, hdecodes⟩ := ih hbody
    refine ⟨'\\' :: r.take n ++ b, ?_, hdecodes.escape (length_escape?_le hescape)⟩
    rw [List.append_assoc, ← hb, List.cons_append, List.take_append_drop]
  | case5 => cases h
  | case6 c r hquote hslash hbreak ih =>
    obtain ⟨⟨ws, r'⟩, hbody, hp⟩ := Option.map_eq_some_iff.mp h
    cases hp
    obtain ⟨b, rfl, hdecodes⟩ := ih hbody
    obtain ⟨hlf, hcr⟩ := not_or.mp hbreak
    exact ⟨c :: b, rfl, hdecodes.plain ⟨hquote, hslash, hlf, hcr⟩⟩

theorem length_lt_of_body? {l rest : List Char} {us : List Nat} (h : body? l = some (us, rest)) :
    rest.length < l.length := by
  obtain ⟨b, rfl, -⟩ := exists_of_body? h
  rw [List.length_append, List.length_cons]
  omega

/-- Up to its quote, a text of plain characters is read as itself. -/
theorem body?_of_plain {b : List Char} (hplain : ∀ c ∈ b, IsPlain c) (rest : List Char) :
    body? (b ++ '"' :: rest) = some (utf16 b, rest) := by
  induction b with
  | nil =>
    rw [List.nil_append, body?, if_pos rfl]
    rfl
  | cons c b ih =>
    obtain ⟨⟨hquote, hslash, hlf, hcr⟩, hb⟩ := List.forall_mem_cons.mp hplain
    rw [List.cons_append, body?, if_neg hquote, if_neg hslash, if_neg (not_or.mpr ⟨hlf, hcr⟩),
      ih hb, Option.map_some, utf16_cons]

/-! ### Alternatives -/

/-- What literals stand for that are alternatives of one type. -/
def alternatives? (l : List Char) : Option (List (List Nat)) :=
  match l with
  | '"' :: r =>
    match _hbody : body? r with
    | some (us, []) => some [us]
    | some (us, ' ' :: '|' :: ' ' :: m) => (alternatives? m).map (us :: ·)
    | _ => none
  | _ => none
termination_by l.length
decreasing_by
  have hlen := length_lt_of_body? _hbody
  simp only [List.length_cons] at hlen ⊢
  omega

/-- Texts between double quotes, as alternatives. -/
def union (bs : List (List Char)) : List Char :=
  [' ', '|', ' '].intercalate (bs.map fun b => '"' :: b ++ ['"'])

theorem union_singleton (b : List Char) : union [b] = '"' :: (b ++ ['"']) := by
  simp [union]

theorem union_cons (b : List Char) {bs : List (List Char)} (hne : bs ≠ []) :
    union (b :: bs) = '"' :: (b ++ '"' :: ' ' :: '|' :: ' ' :: union bs) := by
  obtain ⟨b', bs, rfl⟩ := List.exists_cons_of_ne_nil hne
  simp [union, List.intercalate]

/-- What is read as alternatives is a union of texts that can stand for what is read. -/
theorem exists_of_alternatives? {l : List Char} {uss : List (List Nat)}
    (h : alternatives? l = some uss) :
    ∃ bs, bs ≠ [] ∧ l = union bs ∧ List.Forall₂ Decodes bs uss := by
  fun_induction alternatives? l generalizing uss with
  | case1 r us hbody =>
    cases h
    obtain ⟨b, rfl, hdecodes⟩ := exists_of_body? hbody
    exact ⟨[b], List.cons_ne_nil _ _, (union_singleton b).symm, .cons hdecodes .nil⟩
  | case2 r us m hbody ih =>
    obtain ⟨vss, hvss, rfl⟩ := Option.map_eq_some_iff.mp h
    obtain ⟨b, rfl, hdecodes⟩ := exists_of_body? hbody
    obtain ⟨bs, hne, rfl, hall⟩ := ih hvss
    exact ⟨b :: bs, List.cons_ne_nil _ _, (union_cons b hne).symm, .cons hdecodes hall⟩
  | case3 => cases h
  | case4 => cases h

theorem alternatives?_of_plain {bs : List (List Char)} (hne : bs ≠ [])
    (hplain : ∀ b ∈ bs, ∀ c ∈ b, IsPlain c) : alternatives? (union bs) = some (bs.map utf16) := by
  induction bs, hne using List.recNeNil with
  | singleton b =>
    have hb : ∀ c ∈ b, IsPlain c := hplain b List.mem_cons_self
    rw [union_singleton, alternatives?, body?_of_plain hb]
    rfl
  | cons b bs hne ih =>
    obtain ⟨hb, hbs⟩ := List.forall_mem_cons.mp hplain
    rw [union_cons b hne, alternatives?, body?_of_plain hb]
    simp [ih hbs]

/-- Texts decode to as many units in all as they have only where they stand for themselves. -/
theorem units_le_of_decodes {bs vs : List (List Char)}
    (h : List.Forall₂ (fun b v => Decodes b (utf16 v)) bs vs) :
    (vs.flatMap utf16).length ≤ (bs.flatMap utf16).length ∧
      ((vs.flatMap utf16).length = (bs.flatMap utf16).length →
        vs = bs ∧ ∀ b ∈ bs, ∀ c ∈ b, IsPlain c) := by
  induction h with
  | nil => simp
  | @cons b v bs vs hb _ ih =>
    obtain ⟨hle, heq⟩ := hb
    obtain ⟨hles, heqs⟩ := ih
    simp only [List.flatMap_cons, List.length_append]
    refine ⟨by omega, fun hlen => ?_⟩
    obtain ⟨hv, hplain⟩ := heq (by omega)
    obtain ⟨rfl, hplains⟩ := heqs (by omega)
    exact ⟨by rw [utf16_injective hv], List.forall_mem_cons.mpr ⟨hplain, hplains⟩⟩

/-- The marks around the texts of a union take the same room whatever the texts are. -/
theorem length_utf16_union {bs : List (List Char)} (hne : bs ≠ []) :
    (utf16 (union bs)).length + 3 = (bs.flatMap utf16).length + 5 * bs.length := by
  have hquote : (unitsOf '"'.toNat).length = 1 := rfl
  have hbetween : (unitsOf ' '.toNat).length = 1 ∧ (unitsOf '|'.toNat).length = 1 := ⟨rfl, rfl⟩
  induction bs, hne using List.recNeNil with
  | singleton b =>
    have hnil : (utf16 []).length = 0 := rfl
    rw [union_singleton, utf16_cons, utf16_append, utf16_cons]
    simp only [List.length_append, List.flatMap_cons, List.flatMap_nil, List.length_cons,
      List.length_nil]
    omega
  | cons b bs hne ih =>
    rw [union_cons b hne, utf16_cons, utf16_append]
    simp only [utf16_cons, List.length_append, List.flatMap_cons, List.length_cons]
    omega

/-- Alternatives are read back as the texts they are written from if every character of these
stands for itself, and only then. -/
theorem alternatives?_union_iff {vs : List (List Char)} (hne : vs ≠ []) :
    alternatives? (union vs) = some (vs.map utf16) ↔ ∀ v ∈ vs, ∀ c ∈ v, IsPlain c := by
  refine ⟨fun h => ?_, alternatives?_of_plain hne⟩
  -- Quotes inside the texts may cut the union elsewhere, but into as many texts of as much room.
  obtain ⟨bs, hbs, hunion, hdecodes⟩ := exists_of_alternatives? h
  rw [List.forall₂_map_right_iff] at hdecodes
  have hlen := hdecodes.length_eq
  have hvs := length_utf16_union hne
  rw [hunion, length_utf16_union hbs] at hvs
  obtain ⟨rfl, hplain⟩ := (units_le_of_decodes hdecodes).2 (by omega)
  exact hplain

/-- What rendering leaves out of a union is left out of its texts. -/
theorem filter_union {p : Char → Bool} (hp : ∀ c ∈ ['"', ' ', '|'], p c)
    {bs : List (List Char)} (hne : bs ≠ []) :
    (union bs).filter p = union (bs.map (List.filter p)) := by
  simp only [List.forall_mem_cons] at hp
  obtain ⟨hquote, hblank, hbar, -⟩ := hp
  induction bs, hne using List.recNeNil with
  | singleton b => simp [union_singleton, hquote]
  | cons b bs hne ih =>
    have hmap : bs.map (List.filter p) ≠ [] := by
      simpa using hne
    rw [List.map_cons, union_cons b hne, union_cons _ hmap, ← ih]
    simp [hquote, hblank, hbar]

end Literal

/-! ### Enumerations -/

theorem Attribute.toList_enumerationType (values : List String) :
    (enumerationType values).toList = Literal.union (values.map String.toList) := by
  rw [enumerationType, String.toList_intercalate, Literal.union, List.map_map, List.map_map]
  congr 1
  refine List.map_congr_left fun v _ => ?_
  simp only [Function.comp_apply, String.toList_append]
  rfl

theorem Attribute.typeText_enumerationType {values : List String} (hne : values ≠ [])
    (hquote : ∀ v ∈ values, '\x27' ∉ v.toList) :
    Layout.typeText (enumerationType values) = Literal.union (values.map String.toList) := by
  have hmap : values.map String.toList ≠ [] := by
    simpa using hne
  rw [Layout.typeText, toList_enumerationType, Literal.filter_union (by simp) hmap, List.map_map]
  congr 1
  refine List.map_congr_left fun v hv => List.filter_eq_self.mpr fun c hc => ?_
  simpa using ne_of_mem_of_not_mem hc (hquote v hv)

/-- Every field of a declaration stands in its text, with its type behind a colon. -/
theorem Layout.exists_block_eq_of_mem {d : Declaration} {field : String × String}
    (h : field ∈ d.fields) (l : Layout) :
    ∃ front back, l.block d
      = front ++ (field.1.toList ++ [':', ' '] ++ typeText field.2 ++ ';' :: back) := by
  obtain ⟨before, after, hfields⟩ := List.append_of_mem h
  refine ⟨"export interface ".toList ++ d.name.toList ++ [' ', '\x7b']
      ++ before.flatMap l.fieldText ++ l.beforeField,
    after.flatMap l.fieldText ++ l.beforeClose ++ ['\x7d', '\n', '\n'], ?_⟩
  unfold block
  rw [hfields, List.flatMap_append, List.flatMap_cons, fieldText]
  simp only [List.append_assoc, List.cons_append, List.nil_append]

/-- An enumeration is written as alternatives of literals, in any declaration that has a field of
its type. The literals stand for its values, in their order, if and only if no value has a quote,
a backslash or the end of a line in it. -/
theorem enumeration_reads_back_iff {a : Attribute} {values : List String}
    (hcustom : a.customField = false) (hkind : a.kind = .enumeration values)
    (hne : values ≠ []) (hquote : ∀ v ∈ values, '\x27' ∉ v.toList) :
    ∃ type, a.typeExpression = .ok type ∧
      (∀ (l : Layout) (d : Declaration) (key : String), (key, type) ∈ d.fields →
        ∃ front back, l.block d
          = front ++ (key.toList ++ [':', ' '] ++ Layout.typeText type ++ ';' :: back)) ∧
      (Literal.alternatives? (Layout.typeText type)
          = some (values.map fun v => Literal.utf16 v.toList) ↔
        ∀ v ∈ values, ∀ c ∈ v.toList, Literal.IsPlain c) := by
  refine ⟨Attribute.enumerationType values, ?_, fun l d key h => Layout.exists_block_eq_of_mem h l,
    ?_⟩
  · rw [Attribute.typeExpression, hcustom, hkind]
    rfl
  · have hmap : values.map String.toList ≠ [] := by
      simpa using hne
    have hiff := Literal.alternatives?_union_iff hmap
    rw [List.map_map, List.forall_mem_map] at hiff
    rw [Attribute.typeText_enumerationType hne hquote]
    exact hiff

theorem draft_reads_back :
    ∃ type, (Attribute.ofJson (.object [("type", .string "enumeration"),
        ("enum", .array [.string "draft", .string "a | b"])])).typeExpression = .ok type ∧
      Literal.alternatives? (Layout.typeText type)
        = some [[100, 114, 97, 102, 116], [97, 32, 124, 32, 98]] := by
  have hkind : (Attribute.ofJson (.object [("type", .string "enumeration"),
      ("enum", .array [.string "draft", .string "a | b"])])).kind
        = .enumeration ["draft", "a | b"] := by
    cbv
  obtain ⟨type, htype, -, hread⟩ := enumeration_reads_back_iff (by cbv) hkind (by simp)
    (by decide)
  exact ⟨type, htype, hread.mpr (by simp [Literal.IsPlain])⟩

/-- A quote in a value ends its literal, and a backslash takes the letter behind it along. -/
theorem quote_not_read_back :
    (Attribute.ofJson (.object [("type", .string "enumeration"),
        ("enum", .array [.string "17\""])])).typeExpression = .ok "\"17\"\"" ∧
      Literal.alternatives? (Layout.typeText "\"17\"\"") = none ∧
    (Attribute.ofJson (.object [("type", .string "enumeration"),
        ("enum", .array [.string "C:\\new"])])).typeExpression = .ok "\"C:\\new\"" ∧
      Literal.alternatives? (Layout.typeText "\"C:\\new\"") = some [[67, 58, 10, 101, 119]] := by
  refine ⟨by cbv, ?_, by cbv, ?_⟩
  · have hbody : Literal.body? ['1', '7', '"', '"'] = some ([49, 55], ['"']) := by
      cbv
    have htext : Layout.typeText "\"17\"\"" = ['"', '1', '7', '"', '"'] := by
      cbv
    rw [htext, Literal.alternatives?, hbody]
    rfl
  · have hbody : Literal.body? ['C', ':', '\\', 'n', 'e', 'w', '"']
        = some ([67, 58, 10, 101, 119], []) := by
      cbv
    have htext : Layout.typeText "\"C:\\new\"" = ['"', 'C', ':', '\\', 'n', 'e', 'w', '"'] := by
      cbv
    rw [htext, Literal.alternatives?, hbody]

end ContentTypes
