import ContentTypes.Proofs.Text
import Mathlib
/-!
Paths as parts and slashes. A slash anywhere in a path cuts its parts in two. Joined to a path, a
relative text stands behind one slash, and what is joined next to that stands behind another.
-/

namespace ContentTypes.Path

/-! ### Parts -/

theorem split_cons (b : UInt8) (bytes : List UInt8) :
    split (b :: bytes) = if b = slash then [] :: split bytes
      else match split bytes with
        | [] => [[b]]
        | p :: ps => (b :: p) :: ps := rfl

theorem split_ne_nil (bytes : List UInt8) : split bytes ≠ [] := by
  cases bytes with
  | nil => simp [split]
  | cons b bytes =>
    rw [split_cons]
    split_ifs
    · simp
    · split <;> simp

theorem split_append_slash (front back : List UInt8) :
    split (front ++ slash :: back) = split front ++ split back := by
  induction front with
  | nil =>
    rw [List.nil_append, split_cons, if_pos rfl]
    rfl
  | cons b front ih =>
    obtain ⟨p, ps, hfront⟩ := List.exists_cons_of_ne_nil (split_ne_nil front)
    rw [List.cons_append, split_cons, split_cons, ih, hfront]
    split_ifs <;> rfl

theorem parts_append_slash (front back : List UInt8) :
    (⟨front ++ slash :: back⟩ : Path).parts
      = (⟨front⟩ : Path).parts ++ (⟨back⟩ : Path).parts := by
  simp only [parts, split_append_slash, List.filter_append]

/-- Without parts there is nothing but slashes. -/
theorem eq_slash_of_parts_eq_nil {bytes : List UInt8} (h : (⟨bytes⟩ : Path).parts = []) :
    ∀ b ∈ bytes, b = slash := by
  induction bytes with
  | nil => simp
  | cons b bytes ih =>
    rw [parts, split_cons] at h
    by_cases hb : b = slash
    · rw [if_pos hb] at h
      simpa [hb] using ih h
    · obtain ⟨p, ps, hsplit⟩ := List.exists_cons_of_ne_nil (split_ne_nil bytes)
      rw [if_neg hb, hsplit] at h
      simp at h

theorem endsInSlash_of_parts_eq_nil (front : List UInt8) {back : List UInt8}
    (h : (⟨back⟩ : Path).parts = []) : (⟨front ++ slash :: back⟩ : Path).endsInSlash := by
  rw [endsInSlash, List.getLast?_append_cons]
  rcases List.eq_nil_or_concat back with rfl | ⟨init, b, rfl⟩
  · rfl
  · have hb := eq_slash_of_parts_eq_nil h b (by simp)
    rw [hb, List.concat_eq_append, ← List.cons_append, List.getLast?_concat]
    rfl

theorem split_of_notMem {bytes : List UInt8} (h : slash ∉ bytes) : split bytes = [bytes] := by
  induction bytes with
  | nil => rfl
  | cons b bytes ih =>
    rw [List.mem_cons, not_or] at h
    rw [split_cons, if_neg (Ne.symm h.1), ih h.2]

/-- A name without slashes is the only part of a path that it makes up. -/
theorem eq_of_mem_parts {n m : List UInt8} (hn : slash ∉ n) (hm : m ∈ (⟨n⟩ : Path).parts) :
    m = n := by
  rw [parts, split_of_notMem hn] at hm
  exact List.mem_singleton.mp (List.mem_of_mem_filter hm)

theorem not_isAbsolute_of_notMem {n : List UInt8} (hn : slash ∉ n) :
    ¬ (⟨n⟩ : Path).isAbsolute := by
  rw [isAbsolute, decide_eq_true_eq]
  exact fun hhead => hn (List.mem_of_head? hhead)

/-! ### Joined paths -/

section
variable {p q : Path}

theorem join_eq_or (hp : p.bytes ≠ []) (hq : ¬ q.isAbsolute) :
    (∃ front, p.bytes = front ++ [slash] ∧ p.join q = ⟨front ++ slash :: q.bytes⟩) ∨
      p.join q = ⟨p.bytes ++ slash :: q.bytes⟩ := by
  rw [join, if_neg hq]
  split_ifs with h
  · left
    obtain ⟨front, hfront⟩ := List.getLast?_eq_some_iff.mp (h.resolve_left hp)
    exact ⟨front, hfront, by simp [hfront]⟩
  · exact .inr rfl

theorem parts_join (hp : p.bytes ≠ []) (hq : ¬ q.isAbsolute) :
    (p.join q).parts = p.parts ++ q.parts := by
  rcases join_eq_or hp hq with ⟨front, hfront, hjoin⟩ | hjoin
  · have hp : p.parts = (⟨front⟩ : Path).parts ++ (⟨[]⟩ : Path).parts := by
      rw [← parts_append_slash, ← hfront]
    have hnil : (⟨[]⟩ : Path).parts = [] := rfl
    rw [hjoin, parts_append_slash, hp, hnil, List.append_nil]
  · rw [hjoin, parts_append_slash]

theorem isAbsolute_join (hp : p.bytes ≠ []) (hq : ¬ q.isAbsolute) :
    (p.join q).isAbsolute = p.isAbsolute := by
  obtain ⟨bytes⟩ := p
  obtain ⟨b, bytes, rfl⟩ := List.exists_cons_of_ne_nil hp
  rcases join_eq_or hp hq with ⟨front, hfront, hjoin⟩ | hjoin
  · rw [hjoin, isAbsolute, isAbsolute, hfront]
    simp [List.head?_append]
  · rw [hjoin]
    rfl

theorem bytes_join_ne_nil (hp : p.bytes ≠ []) (hq : ¬ q.isAbsolute) :
    (p.join q).bytes ≠ [] := by
  rcases join_eq_or hp hq with ⟨front, -, hjoin⟩ | hjoin <;> simp [hjoin]

end

/-! ### Paths below a directory -/

variable {dir : Path} {s t : String}

/-- `<dir>/<s>`, without a second slash where `dir` ends in one. -/
def below (dir : Path) (s : String) : Path :=
  ⟨(if dir.endsInSlash then dir.bytes else dir.bytes ++ [slash]) ++ utf8 s⟩

theorem isAbsolute_ofString_iff : (ofString s).isAbsolute ↔ s.toList.head? = some '/' := by
  rw [isAbsolute, decide_eq_true_eq]
  exact head?_utf8_iff (by decide) (by decide)

theorem child_eq_below (hdir : dir.bytes ≠ []) (hs : s.toList.head? ≠ some '/') :
    dir.child s = dir.below s := by
  have hrelative : ¬ (ofString s).isAbsolute := by rwa [isAbsolute_ofString_iff]
  rw [child, join, if_neg hrelative, below]
  by_cases hslash : dir.bytes.getLast? = some slash
  · rw [if_pos (.inr hslash), if_pos (by simpa [endsInSlash] using hslash)]
    rfl
  · rw [if_neg (by simp [hdir, hslash]), if_neg (by simpa [endsInSlash] using hslash)]
    simp [ofString]

theorem bytes_below_ne_nil (hs : s ≠ "") : (dir.below s).bytes ≠ [] := by
  simp [below, utf8_ne_nil hs]

theorem endsInSlash_below_iff (hs : s ≠ "") :
    (dir.below s).endsInSlash ↔ s.toList.getLast? = some '/' := by
  rw [endsInSlash, decide_eq_true_eq, below, List.getLast?_append_of_ne_nil _ (utf8_ne_nil hs)]
  exact getLast?_utf8_iff (by decide) (by decide)

theorem below_child (hs : s ≠ "") (hlast : s.toList.getLast? ≠ some '/')
    (ht : t.toList.head? ≠ some '/') : (dir.below s).child t = dir.below (s ++ "/" ++ t) := by
  have hend : ¬ (dir.below s).endsInSlash := by rwa [endsInSlash_below_iff hs]
  have hslash : utf8 "/" = [slash] := by decide
  rw [child_eq_below (bytes_below_ne_nil hs) ht, below, if_neg hend]
  simp [below, utf8_append, hslash]

end ContentTypes.Path
