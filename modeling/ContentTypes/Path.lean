/-!
Paths as byte sequences, which need not be UTF-8. Only the slash has a meaning here: `.`, `..`
and doubled slashes are kept as written.
-/

namespace ContentTypes

/-- The bytes of a text in UTF-8. -/
def utf8 (s : String) : List UInt8 :=
  s.toList.flatMap String.utf8EncodeChar

namespace Utf8

def isContinuation (b : UInt8) : Bool :=
  0x80 ≤ b && b < 0xC0

/-- The length that the first byte of a sequence announces, and the range of its second byte. -/
def sequenceShape? (b : UInt8) : Option (Nat × UInt8 × UInt8) :=
  if 0xC2 ≤ b && b ≤ 0xDF then some (2, 0x80, 0xBF)
  else if b = 0xE0 then some (3, 0xA0, 0xBF)
  else if b = 0xED then some (3, 0x80, 0x9F)
  else if 0xE1 ≤ b && b ≤ 0xEF then some (3, 0x80, 0xBF)
  else if b = 0xF0 then some (4, 0x90, 0xBF)
  else if 0xF1 ≤ b && b ≤ 0xF3 then some (4, 0x80, 0xBF)
  else if b = 0xF4 then some (4, 0x80, 0x8F)
  else none

/-- How many bytes after the first belong to the longest start of a well-formed sequence. -/
def tailLength (b : UInt8) (rest : List UInt8) : Nat :=
  match sequenceShape? b, rest with
  | some (n, lo, hi), c :: cs =>
    if lo ≤ c && c ≤ hi then 1 + ((cs.take (n - 2)).takeWhile isContinuation).length else 0
  | _, _ => 0

def payload (bs : List UInt8) : Nat :=
  bs.foldl (fun n b => n * 64 + b.toNat % 64) 0

/-- The character of a complete sequence. -/
def decodeSequence (b : UInt8) (tail : List UInt8) : Char :=
  match sequenceShape? b with
  | none => if b < 0x80 then Char.ofNat b.toNat else '\uFFFD'
  | some (n, _, _) =>
    if tail.length + 1 = n then
      Char.ofNat (b.toNat % Nat.pow 2 (7 - n) * Nat.pow 64 tail.length + payload tail)
    else '\uFFFD'

/-- The characters of a byte sequence; each longest start of a broken sequence, and each byte
that starts none, becomes one replacement character. -/
def decodeLossy : List UInt8 → List Char
  | [] => []
  | b :: rest =>
    let n := tailLength b rest
    decodeSequence b (rest.take n) :: decodeLossy (rest.drop n)
termination_by bs => bs.length

end Utf8

/-- The text that a byte sequence shows as. -/
def displayBytes (bytes : List UInt8) : String :=
  match String.fromUTF8? bytes.toByteArray with
  | some s => s
  | none => String.ofList (Utf8.decodeLossy bytes)

structure Path where
  bytes : List UInt8
  deriving DecidableEq, Repr

namespace Path

def slash : UInt8 := 0x2F

def dot : UInt8 := 0x2E

def ofString (s : String) : Path :=
  ⟨utf8 s⟩

def display (p : Path) : String :=
  displayBytes p.bytes

def isAbsolute (p : Path) : Bool :=
  p.bytes.head? = some slash

/-- `q` as seen from `p`: an absolute path stays what it is. -/
def join (p q : Path) : Path :=
  if q.isAbsolute then q
  else if p.bytes = [] ∨ p.bytes.getLast? = some slash then ⟨p.bytes ++ q.bytes⟩
  else ⟨p.bytes ++ slash :: q.bytes⟩

/-- `q` as seen from `p`, given as a text. -/
def child (p : Path) (q : String) : Path :=
  p.join (ofString q)

/-- The parts between slashes, `.` and `..` among them. -/
def split (bytes : List UInt8) : List (List UInt8) :=
  bytes.foldr
    (fun b parts =>
      if b = slash then [] :: parts
      else match parts with
        | [] => [[b]]
        | p :: ps => (b :: p) :: ps)
    [[]]

/-- The parts that are not empty. -/
def parts (p : Path) : List (List UInt8) :=
  (split p.bytes).filter (· ≠ [])

/-- Whether the path ends in a slash, and so must lead to a directory. -/
def endsInSlash (p : Path) : Bool :=
  p.bytes.getLast? = some slash

/-- Takes slashes and parts `.` off the end, of the bytes in reverse; the slash of the root and a
leading `.` stay. -/
def trimReversed : List UInt8 → List UInt8
  | [] => []
  | b :: rest =>
    if b = slash then (if rest = [] then [b] else trimReversed rest)
    else if b = dot ∧ rest.head? = some slash then trimReversed rest
    else b :: rest

theorem length_trimReversed_le (r : List UInt8) : (trimReversed r).length ≤ r.length := by
  fun_induction trimReversed r <;> simp_all <;> omega

/-- The path without its last part; the root and the empty path have none. -/
def parent? (p : Path) : Option Path :=
  match trimReversed p.bytes.reverse with
  | [] => none
  | b :: rest =>
    if b = slash then none
    else
      match rest.dropWhile (· ≠ slash) with
      | [] => some ⟨[]⟩
      | front => some ⟨(trimReversed front).reverse⟩

theorem length_parent?_lt {p q : Path} (h : p.parent? = some q) :
    q.bytes.length < p.bytes.length := by
  have hp := length_trimReversed_le p.bytes.reverse
  unfold parent? at h
  split at h
  · simp at h
  · next b rest hb =>
    rw [hb] at hp
    simp only [List.length_cons, List.length_reverse] at hp
    have hd := (List.dropWhile_suffix (l := rest) (· ≠ slash)).length_le
    split at h
    · simp at h
    · split at h
      · cases h; simp; omega
      · next hne =>
        cases h
        have := length_trimReversed_le (rest.dropWhile (· ≠ slash))
        simp only [List.length_reverse]
        omega

end Path
end ContentTypes
