import ContentTypes.Text.Invisible
/-!
A text between double quotes, as messages show it: the quote, the backslash and the usual
control characters have short escapes, anything else without a visible form is shown by its
code point, and a single quote stands as it is.
-/

namespace ContentTypes.Text

/-- The code point in lowercase hexadecimal digits without padding. -/
def hexadecimal (n : Nat) : List Char :=
  Nat.toDigits 16 n

def quotedChar (c : Char) : List Char :=
  match c with
  | '"' => ['\\', '"']
  | '\\' => ['\\', '\\']
  | '\n' => ['\\', 'n']
  | '\r' => ['\\', 'r']
  | '\t' => ['\\', 't']
  | '\x00' => ['\\', '0']
  | c => if isInvisible c then "\\u\x7b".toList ++ hexadecimal c.toNat ++ ['}'] else [c]

def quoted (s : String) : String :=
  String.ofList ('"' :: s.toList.flatMap quotedChar ++ ['"'])

end ContentTypes.Text
