/-!
White space of every script, and texts without the blanks at their two ends.
-/

namespace ContentTypes.Text

def isBlank (c : Char) : Bool :=
  let n := c.toNat
  (0x9 ≤ n && n ≤ 0xd) || n = 0x20 || n = 0x85 || n = 0xa0 || n = 0x1680
    || (0x2000 ≤ n && n ≤ 0x200a) || n = 0x2028 || n = 0x2029 || n = 0x202f || n = 0x205f
    || n = 0x3000

def trimmed (s : List Char) : List Char :=
  ((s.dropWhile isBlank).reverse.dropWhile isBlank).reverse

/-- A text without blanks stays as it is. -/
theorem trimmed_eq_self {s : List Char} (hs : ∀ c ∈ s, isBlank c = false) : trimmed s = s := by
  have stays : ∀ t : List Char, (∀ c ∈ t, isBlank c = false) → t.dropWhile isBlank = t
    | [], _ => rfl
    | c :: r, h => by simp [List.dropWhile, h c]
  rw [trimmed, stays s hs, stays _ (by simpa using hs), List.reverse_reverse]

end ContentTypes.Text
