/-!
A text as it reads where no terminal interprets it: control sequences and control characters are
taken out, blanks and everything visible stay. A sequence begins with the escape character, and
what comes next decides how it ends: a control sequence at its final letter, a command of the
operating system at a bell, a device string at a string terminator. A new escape character starts
over, and the characters of cancelling end any sequence.

The main statement is `plain_eq_self`: a text that holds no control character but blanks loses
nothing.
-/

namespace ContentTypes.Text

/-- Where a reader of terminal text stands. -/
inductive Sequence where
  /-- Between sequences. -/
  | none
  /-- After the escape character. -/
  | escape
  /-- After an escape character and intermediates. -/
  | intermediate
  /-- In a control sequence, up to its final letter. -/
  | control
  /-- At the start of a device string. -/
  | device
  /-- In the parameters of a device string. -/
  | deviceParameters
  /-- In the intermediates of a device string. -/
  | deviceIntermediate
  /-- In a string that runs to its terminator. -/
  | payload
  /-- In a command of the operating system. -/
  | command
  deriving DecidableEq, Repr

namespace Sequence

/-- Whether an octet of the character is the one-octet form of the string terminator. -/
def terminates (c : Char) : Bool :=
  (String.utf8EncodeChar c).contains 0x9c

/-- Where a character leads that is neither an escape character nor one of cancelling. -/
def next (s : Sequence) (c : Char) : Sequence :=
  let n := c.toNat
  match s with
  | .none => .none
  | .escape =>
    if 0x20 ≤ n ∧ n ≤ 0x2f then .intermediate
    else if c = '[' then .control
    else if c = ']' then .command
    else if c = 'P' then .device
    else if c = 'X' ∨ c = '^' ∨ c = '_' then .payload
    else if 0x30 ≤ n ∧ n ≤ 0x7e then .none
    else .escape
  | .intermediate => if 0x30 ≤ n ∧ n ≤ 0x7e then .none else .intermediate
  | .control => if 0x40 ≤ n ∧ n ≤ 0x7e then .none else .control
  | .device =>
    if 0x20 ≤ n ∧ n ≤ 0x2f then .deviceIntermediate
    else if 0x30 ≤ n ∧ n ≤ 0x3f then .deviceParameters
    else if 0x40 ≤ n ∧ n ≤ 0x7e then .payload
    else .device
  | .deviceParameters =>
    if 0x20 ≤ n ∧ n ≤ 0x2f then .deviceIntermediate
    else if 0x3c ≤ n ∧ n ≤ 0x7e then .payload
    else .deviceParameters
  | .deviceIntermediate => if 0x30 ≤ n ∧ n ≤ 0x7e then .payload else .deviceIntermediate
  | .payload => if terminates c then .none else .payload
  | .command => if c = '\x07' then .none else .command

/-- Whether a blank shows even inside the sequence; strings swallow it. -/
def showsBlanks (s : Sequence) : Bool :=
  s = .escape || s = .intermediate || s = .control

end Sequence

/-- The blanks that count as text and not as control characters. -/
def isPlainBlank (c : Char) : Bool :=
  c = ' ' || c = '\t' || c = '\n' || c = '\x0c' || c = '\r'

/-- Whether a character stands for itself between sequences. -/
def isPlain (c : Char) : Bool :=
  (0x20 ≤ c.toNat && c.toNat ≠ 0x7f) || isPlainBlank c

/-- Goes on from inside a sequence. A blank inside one interrupts it: what follows is text, up to
the next control character, where the sequence goes on. -/
def plainFrom (s : Sequence) (interrupted : Bool) : List Char → List Char
  | [] => []
  | c :: rest =>
    if c = '\x1b' then plainFrom .escape false rest
    else if c = '\x18' ∨ c = '\x1a' then plainFrom .none false rest
    else if s = .none ∨ interrupted then
      if isPlain c then c :: plainFrom (if 0x80 ≤ c.toNat then .none else s) interrupted rest
      else plainFrom s false rest
    else if s.showsBlanks ∧ isPlainBlank c ∧ c ≠ ' ' then c :: plainFrom s true rest
    else plainFrom (s.next c) false rest

def plain (s : String) : String :=
  String.ofList (plainFrom .none false s.toList)

theorem plainFrom_eq_self {s : List Char} (hs : ∀ c ∈ s, isPlain c) :
    plainFrom .none false s = s := by
  induction s with
  | nil => rfl
  | cons c r ih =>
    have hc := hs c (by simp)
    have h1 : c ≠ '\x1b' := by rintro rfl; exact absurd hc (by decide)
    have h2 : ¬(c = '\x18' ∨ c = '\x1a') := by
      rintro (rfl | rfl) <;> exact absurd hc (by decide)
    simp [plainFrom, h1, h2, hc, ih fun d hd => hs d (by simp [hd])]

/-- A text that holds no control character but blanks loses nothing. -/
theorem plain_eq_self {s : String} (hs : ∀ c ∈ s.toList, isPlain c) : plain s = s := by
  rw [plain, plainFrom_eq_self hs, String.ofList_toList]

/-- What follows a sequence that sets a style is read as text, wherever it starts. -/
theorem plainFrom_style (s : Sequence) (interrupted : Bool) (rest : List Char) :
    plainFrom s interrupted ("\x1b[0m".toList ++ rest) = plainFrom .none false rest := by
  rfl

end ContentTypes.Text
