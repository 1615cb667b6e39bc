import ContentTypes.Path
import Mathlib
/-!
Texts as bytes and back, and texts cut at a character. A text shows as itself, and an ASCII
character stands for one byte that belongs to no other character, so slashes and points can be
looked for in either form.
-/

namespace ContentTypes

theorem utf8_append (s t : String) : utf8 (s ++ t) = utf8 s ++ utf8 t := by
  simp [utf8, String.toList_append]

theorem utf8_ne_nil {s : String} (h : s ≠ "") : utf8 s ≠ [] := by
  intro hnil
  rw [utf8, List.flatMap_eq_nil_iff] at hnil
  apply h
  rw [← String.toList_inj]
  apply List.eq_nil_iff_forall_not_mem.mpr
  intro c hc
  exact String.utf8EncodeChar_ne_nil (hnil c hc)

theorem toByteArray_utf8 (s : String) : (utf8 s).toByteArray = s.toByteArray := by
  rw [← String.utf8Encode_toList, List.utf8Encode]
  rfl

/-- What is a text shows as that text. -/
@[simp] theorem displayBytes_utf8 (s : String) : displayBytes (utf8 s) = s := by
  have htext : String.fromUTF8? (utf8 s).toByteArray = some s := by
    rw [toByteArray_utf8]
    simp [String.fromUTF8?, String.fromUTF8, s.isValidUTF8]
  rw [displayBytes, htext]

theorem utf8_injective : Function.Injective utf8 := by
  intro s t h
  rw [← displayBytes_utf8 s, h, displayBytes_utf8]

/-! ### ASCII characters -/

variable {b : UInt8} {c d : Char} {s : String}

theorem utf8EncodeChar_of_ascii (hb : b < 128) (hc : c.toNat = b.toNat) :
    String.utf8EncodeChar c = [b] := by
  have hlt : b.toNat < 128 := hb
  have hval : c.val.toNat = b.toNat := hc
  rw [String.utf8EncodeChar.eq_1, if_pos (by omega), hval, UInt8.ofNat_toNat]

theorem notMem_map_ofNat (hb : b < 128) {l : List Nat} (h : ∀ n ∈ l, 128 ≤ n ∧ n < 256) :
    b ∉ l.map UInt8.ofNat := by
  intro hmem
  obtain ⟨n, hn, rfl⟩ := List.mem_map.mp hmem
  have hlt : (UInt8.ofNat n).toNat < 128 := hb
  rw [UInt8.toNat_ofNat'] at hlt
  have := h n hn
  omega

theorem mem_utf8EncodeChar_iff (hb : b < 128) (hc : c.toNat = b.toNat) :
    b ∈ String.utf8EncodeChar d ↔ d = c := by
  constructor
  · intro h
    rw [String.utf8EncodeChar.eq_1] at h
    split_ifs at h with hone htwo hthree
    · have hd : d.val.toNat = b.toNat := by
        rw [List.mem_singleton.mp h, UInt8.toNat_ofNat']
        omega
      exact Char.toNat_inj.mp (hd.trans hc.symm)
    -- every byte of a longer sequence is beyond ASCII
    · exact absurd h (notMem_map_ofNat hb (l := [_, _]) (by simp; omega))
    · exact absurd h (notMem_map_ofNat hb (l := [_, _, _]) (by simp; omega))
    · exact absurd h (notMem_map_ofNat hb (l := [_, _, _, _]) (by simp; omega))
  · rintro rfl
    rw [utf8EncodeChar_of_ascii hb hc]
    exact List.mem_singleton_self b

theorem mem_utf8_iff (hb : b < 128) (hc : c.toNat = b.toNat) : b ∈ utf8 s ↔ c ∈ s.toList := by
  rw [utf8, List.mem_flatMap]
  constructor
  · rintro ⟨d, hd, hmem⟩
    rw [(mem_utf8EncodeChar_iff hb hc).mp hmem] at hd
    exact hd
  · intro h
    exact ⟨c, h, (mem_utf8EncodeChar_iff hb hc).mpr rfl⟩

theorem toNat_eq_of_mem_utf8EncodeChar (hb : b < 128) (h : b ∈ String.utf8EncodeChar d) :
    d.toNat = b.toNat := by
  have hlt : b.toNat < 128 := hb
  have hcode : (Char.ofNat b.toNat).toNat = b.toNat := by
    rw [Char.toNat_ofNat, if_pos (.inl (by omega))]
  rw [(mem_utf8EncodeChar_iff hb hcode).mp h, hcode]

theorem head?_utf8_iff (hb : b < 128) (hc : c.toNat = b.toNat) :
    (utf8 s).head? = some b ↔ s.toList.head? = some c := by
  rw [utf8]
  cases s.toList with
  | nil => simp
  | cons d l =>
    rw [List.flatMap_cons, List.head?_append_of_ne_nil _ String.utf8EncodeChar_ne_nil,
      List.head?_cons, Option.some.injEq]
    constructor
    · intro h
      exact (mem_utf8EncodeChar_iff hb hc).mp (List.mem_of_head? h)
    · rintro rfl
      rw [utf8EncodeChar_of_ascii hb hc]
      rfl

theorem getLast?_utf8_iff (hb : b < 128) (hc : c.toNat = b.toNat) :
    (utf8 s).getLast? = some b ↔ s.toList.getLast? = some c := by
  rw [utf8]
  rcases List.eq_nil_or_concat s.toList with hnil | ⟨l, d, hl⟩
  · simp [hnil]
  · rw [hl, List.concat_eq_append, List.flatMap_append, List.getLast?_concat,
      List.flatMap_singleton, List.getLast?_append_of_ne_nil _ String.utf8EncodeChar_ne_nil,
      Option.some.injEq]
    constructor
    · intro h
      exact (mem_utf8EncodeChar_iff hb hc).mp (List.mem_of_getLast? h)
    · rintro rfl
      rw [utf8EncodeChar_of_ascii hb hc]
      rfl

/-! ### Cuts -/

variable {l r : List Char}

theorem takeWhile_ne_append (hl : c ∉ l) (hr : ∀ d ∈ r.head?, d = c) :
    (l ++ r).takeWhile (· ≠ c) = l := by
  rw [List.takeWhile_append_of_pos fun d hd => by simpa using fun h : d = c => hl (h ▸ hd)]
  cases r with
  | nil => simp
  | cons d r => simp [hr d rfl]

theorem dropWhile_ne_append (hl : c ∉ l) (hr : ∀ d ∈ r.head?, d = c) :
    (l ++ r).dropWhile (· ≠ c) = r := by
  rw [List.dropWhile_append_of_pos fun d hd => by simpa using fun h : d = c => hl (h ▸ hd)]
  cases r with
  | nil => rfl
  | cons d r => simp [hr d rfl]

end ContentTypes
