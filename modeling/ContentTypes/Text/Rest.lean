/-!
What is left of a text after reading some of it. A reader that returns its rest with a bound on
the length can be called again and again without a counter.
-/

namespace ContentTypes

/-- A text shorter than `n` characters. -/
abbrev Before (n : Nat) := { r : List Char // r.length < n }

/-- A text of at most `n` characters. -/
abbrev UpTo (n : Nat) := { r : List Char // r.length ≤ n }

variable {n : Nat} {c : Char} {s : List Char}

theorem length_le_self (s : List Char) : s.length ≤ s.length :=
  Nat.le_refl _

namespace UpTo

/-- Nothing is read. -/
def all (s : List Char) : UpTo s.length :=
  ⟨s, length_le_self s⟩

def dropWhile (p : Char → Bool) (s : List Char) : UpTo s.length :=
  ⟨s.dropWhile p, (List.dropWhile_suffix p).length_le⟩

/-- What two readers leave, one after the other. -/
def trans (r : UpTo n) (r' : UpTo r.1.length) : UpTo n :=
  ⟨r'.1, Nat.le_trans r'.2 r.2⟩

def transBefore (r : UpTo n) (r' : Before r.1.length) : Before n :=
  ⟨r'.1, Nat.lt_of_lt_of_le r'.2 r.2⟩

/-- The rest of a text as that of one with a character in front. -/
def cons (r : UpTo s.length) : UpTo (c :: s).length :=
  ⟨r.1, Nat.le_succ_of_le r.2⟩

/-- The same where the character in front counts as read. -/
def after (r : UpTo s.length) : Before (c :: s).length :=
  ⟨r.1, Nat.lt_succ_of_le r.2⟩

end UpTo

namespace Before

theorem length_lt (r : Before s.length) : r.1.length < s.length :=
  r.2

theorem length_le (r : Before s.length) : r.1.length ≤ s.length :=
  Nat.le_of_lt r.2

theorem length_trans_lt (r : Before s.length) (r' : Before r.1.length) :
    r'.1.length < s.length :=
  Nat.lt_trans r'.2 r.2

/-- One character is read. -/
def tail (c : Char) (s : List Char) : Before (c :: s).length :=
  ⟨s, Nat.lt_succ_self _⟩

def upTo (r : Before n) : UpTo n :=
  ⟨r.1, Nat.le_of_lt r.2⟩

def trans (r : Before n) (r' : Before r.1.length) : Before n :=
  ⟨r'.1, Nat.lt_trans r'.2 r.2⟩

def transUpTo (r : Before n) (r' : UpTo r.1.length) : Before n :=
  ⟨r'.1, Nat.lt_of_le_of_lt r'.2 r.2⟩

def after (r : Before s.length) : Before (c :: s).length :=
  ⟨r.1, Nat.lt_succ_of_lt r.2⟩

/-- The rest of a text as that of the text without its first character. -/
def ofCons (r : Before (c :: s).length) : UpTo s.length :=
  ⟨r.1, Nat.le_of_lt_succ r.2⟩

end Before
end ContentTypes
