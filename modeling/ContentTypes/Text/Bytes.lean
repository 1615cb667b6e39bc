/-!
Places in a text, counted in the bytes that its characters take in UTF-8. A text can only be cut
between two characters, and not every number of bytes names such a place.

The main statement is `cut?_append`: between the places where a part starts and ends, the part
itself is cut out.
-/

namespace ContentTypes.Text

/-- The number of bytes that the characters take. -/
def byteCount : List Char → Nat
  | [] => 0
  | c :: s => c.utf8Size + byteCount s

/-- The first `n` bytes and the rest; none if the place lies inside a character or behind the
end. -/
def splitBytes? : List Char → Nat → Option (List Char × List Char)
  | s, 0 => some ([], s)
  | [], _ + 1 => none
  | c :: s, n + 1 =>
    if c.utf8Size ≤ n + 1 then
      (splitBytes? s (n + 1 - c.utf8Size)).map fun (front, rest) => (c :: front, rest)
    else none

/-- The part between two places. -/
def cut? (s : List Char) (start stop : Nat) : Option (List Char) := do
  let (_, rest) ← splitBytes? s start
  let (part, _) ← splitBytes? rest (stop - start)
  some part

theorem splitBytes?_append (s t : List Char) :
    splitBytes? (s ++ t) (byteCount s) = some (s, t) := by
  induction s with
  | nil => simp [byteCount, splitBytes?]
  | cons c s ih =>
    obtain ⟨n, hn⟩ : ∃ n, byteCount (c :: s) = n + 1 :=
      ⟨byteCount (c :: s) - 1, by have := c.utf8Size_pos; simp only [byteCount]; omega⟩
    have hs : n + 1 - c.utf8Size = byteCount s := by rw [← hn, byteCount]; omega
    have hc : c.utf8Size ≤ n + 1 := by rw [← hn, byteCount]; omega
    rw [hn, List.cons_append, splitBytes?, if_pos hc, hs, ih, Option.map_some]

/-- Between the places where a part starts and ends, the part itself is cut out. -/
theorem cut?_append (s t r : List Char) :
    cut? (s ++ t ++ r) (byteCount s) (byteCount s + byteCount t) = some t := by
  simp [cut?, List.append_assoc, splitBytes?_append]

end ContentTypes.Text
