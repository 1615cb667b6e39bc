import ContentTypes.Proofs.Text
import Mathlib
/-!
What shows of bytes that need not be a text. A broken sequence shows as a replacement character,
and a sequence of several bytes never stands for an ASCII character, because the range of its
second byte rules out those that are longer than they have to be. So what shows as an ASCII
character is the byte of this character.
-/

namespace ContentTypes

variable {b : UInt8} {c : Char} {bytes : List UInt8}

namespace Utf8

theorem le_foldl_payload (tail : List UInt8) (n : Nat) :
    n * 64 ^ tail.length ≤ tail.foldl (fun n b => n * 64 + b.toNat % 64) n := by
  induction tail generalizing n with
  | nil => simp
  | cons x tail ih =>
    calc n * 64 ^ (x :: tail).length = (n * 64) * 64 ^ tail.length := by
          rw [List.length_cons, pow_succ]
          ring
      _ ≤ (n * 64 + x.toNat % 64) * 64 ^ tail.length :=
          Nat.mul_le_mul_right _ (Nat.le_add_right _ _)
      _ ≤ (x :: tail).foldl (fun n b => n * 64 + b.toNat % 64) n := ih _

/-- The first payload bits weigh the most. -/
theorem le_payload (x : UInt8) (tail : List UInt8) :
    x.toNat % 64 * 64 ^ tail.length ≤ payload (x :: tail) := by
  have h := le_foldl_payload tail (x.toNat % 64)
  simpa [payload] using h

theorem two_le_of_shape {a lo hi : UInt8} {n : Nat} (h : sequenceShape? a = some (n, lo, hi)) :
    2 ≤ n := by
  rw [sequenceShape?] at h
  split_ifs at h
  all_goals
    obtain ⟨rfl, -, -⟩ := h
    decide

/-- With a second byte in its range, a sequence stands for a number beyond ASCII. -/
theorem beyond_ascii_of_shape {a x lo hi : UInt8} {n : Nat}
    (h : sequenceShape? a = some (n, lo, hi)) (hlo : lo ≤ x) (hhi : x ≤ hi) :
    128 ≤ a.toNat % 2 ^ (7 - n) * 64 ^ (n - 1) + x.toNat % 64 * 64 ^ (n - 2) := by
  rw [sequenceShape?] at h
  simp only [Bool.and_eq_true, decide_eq_true_eq, ← UInt8.toNat_inj, UInt8.le_iff_toNat_le,
    UInt8.reduceToNat] at h
  rw [UInt8.le_iff_toNat_le] at hlo hhi
  split_ifs at h
  all_goals
    obtain ⟨rfl, rfl, rfl⟩ := h
    simp only [UInt8.reduceToNat] at hlo hhi
    norm_num
    omega

theorem tail_cases {a lo hi : UInt8} {n : Nat} (h : sequenceShape? a = some (n, lo, hi))
    (rest : List UInt8) : rest.take (tailLength a rest) = [] ∨
      ∃ x tail, rest.take (tailLength a rest) = x :: tail ∧ lo ≤ x ∧ x ≤ hi := by
  cases rest with
  | nil => exact .inl (List.take_nil)
  | cons x cs =>
    have hlength : tailLength a (x :: cs) = if lo ≤ x && x ≤ hi then
        1 + ((cs.take (n - 2)).takeWhile isContinuation).length else 0 := by
      simp only [tailLength, h]
    rw [hlength]
    split_ifs with hx
    · rw [Nat.add_comm, List.take_succ_cons]
      exact .inr ⟨x, _, rfl, by simpa using hx⟩
    · exact .inl List.take_zero

/-- The number that a complete sequence of several bytes stands for. -/
theorem beyond_ascii_of_complete {a lo hi : UInt8} {n : Nat} {rest : List UInt8}
    (h : sequenceShape? a = some (n, lo, hi))
    (hlength : (rest.take (tailLength a rest)).length + 1 = n) :
    128 ≤ a.toNat % 2 ^ (7 - n) * 64 ^ (rest.take (tailLength a rest)).length
      + payload (rest.take (tailLength a rest)) := by
  rcases tail_cases h rest with hnil | ⟨x, tail, htail, hlo, hhi⟩
  · have hn := two_le_of_shape h
    rw [hnil, List.length_nil] at hlength
    omega
  · rw [htail] at hlength ⊢
    obtain rfl : n = tail.length + 2 := hlength.symm
    have hbeyond := beyond_ascii_of_shape h hlo hhi
    have hpayload := le_payload x tail
    have hpow : tail.length + 2 - 1 = (x :: tail).length := rfl
    rw [hpow, Nat.add_sub_cancel] at hbeyond
    omega

/-- Only an ASCII byte shows as an ASCII character. The character zero is left aside, because it
also stands for what is no character. -/
theorem eq_of_decodeSequence {a : UInt8} {rest : List UInt8} (hb : b < 128)
    (hc : c.toNat = b.toNat) (hzero : b ≠ 0)
    (h : decodeSequence a (rest.take (tailLength a rest)) = c) : a = b := by
  have hlt : b.toNat < 128 := hb
  have hpos : b.toNat ≠ 0 := fun h => hzero (UInt8.toNat_inj.mp h)
  have hreplacement : '\uFFFD' ≠ c := by
    rintro rfl
    have hcode : '\uFFFD'.toNat = 0xFFFD := by decide
    omega
  have hvalue (v : Nat) (hv : Char.ofNat v = c) : v = b.toNat := by
    rw [← hv, Char.toNat_ofNat] at hc
    split_ifs at hc
    · exact hc
    · exact absurd hc.symm hpos
  rw [decodeSequence] at h
  cases hshape : sequenceShape? a with
  | none =>
    simp only [hshape] at h
    split_ifs at h
    · exact UInt8.toNat_inj.mp (hvalue _ h)
    · exact absurd h hreplacement
  | some shape =>
    obtain ⟨n, lo, hi⟩ := shape
    simp only [hshape] at h
    split_ifs at h with hlength
    · have hbeyond := beyond_ascii_of_complete hshape hlength
      have hv := hvalue _ h
      rw [Nat.pow_eq, Nat.pow_eq] at hv
      omega
    · exact absurd h hreplacement

theorem mem_of_mem_decodeLossy (hb : b < 128) (hc : c.toNat = b.toNat) (hzero : b ≠ 0)
    (h : c ∈ decodeLossy bytes) : b ∈ bytes := by
  fun_induction decodeLossy bytes with
  | case1 => cases h
  | case2 a rest n ih =>
    rcases List.mem_cons.mp h with h | h
    · rw [eq_of_decodeSequence hb hc hzero h.symm]
      exact List.mem_cons_self
    · exact List.mem_cons_of_mem a (List.mem_of_mem_drop (ih h))

theorem head?_of_decodeLossy (hb : b < 128) (hc : c.toNat = b.toNat) (hzero : b ≠ 0)
    (h : (decodeLossy bytes).head? = some c) : bytes.head? = some b := by
  cases bytes with
  | nil => simp [decodeLossy] at h
  | cons a rest =>
    rw [decodeLossy, List.head?_cons, Option.some.injEq] at h
    rw [List.head?_cons, eq_of_decodeSequence hb hc hzero h]

end Utf8

theorem displayBytes_cases (bytes : List UInt8) :
    utf8 (displayBytes bytes) = bytes ∨
      (displayBytes bytes).toList = Utf8.decodeLossy bytes := by
  rw [displayBytes]
  cases h : String.fromUTF8? bytes.toByteArray with
  | none => exact .inr (String.toList_ofList)
  | some s =>
    have hbytes : s.toByteArray = bytes.toByteArray := by
      rw [String.fromUTF8?] at h
      split_ifs at h
      cases h
      rfl
    have hdata := congrArg (fun a => a.data.toList) ((toByteArray_utf8 s).trans hbytes)
    left
    simpa using hdata

theorem mem_of_mem_displayBytes (hb : b < 128) (hc : c.toNat = b.toNat) (hzero : b ≠ 0)
    (h : c ∈ (displayBytes bytes).toList) : b ∈ bytes := by
  rcases displayBytes_cases bytes with htext | hlossy
  · rw [← htext, mem_utf8_iff hb hc]
    exact h
  · rw [hlossy] at h
    exact Utf8.mem_of_mem_decodeLossy hb hc hzero h

theorem head?_of_displayBytes (hb : b < 128) (hc : c.toNat = b.toNat) (hzero : b ≠ 0)
    (h : (displayBytes bytes).toList.head? = some c) : bytes.head? = some b := by
  rcases displayBytes_cases bytes with htext | hlossy
  · rw [← htext, head?_utf8_iff hb hc]
    exact h
  · rw [hlossy] at h
    exact Utf8.head?_of_decodeLossy hb hc hzero h

end ContentTypes
