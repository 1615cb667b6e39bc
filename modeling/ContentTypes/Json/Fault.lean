import ContentTypes.Json.Printer
import ContentTypes.Text.Quoted
/-!
Why a JSON text is refused. A text that ends too early is told apart from any other defect of
form, and both from a well-formed value of the wrong shape.
-/

namespace ContentTypes.Json

/-- A value as a message names it: containers without their content. -/
inductive Found where
  | null
  | bool (b : Bool)
  | number (n : Number)
  | string (s : String)
  | sequence
  | map
  deriving DecidableEq, Repr

def Found.ofValue : Json → Found
  | .null => .null
  | .bool b => .bool b
  | .number n => .number n
  | .string s => .string s
  | .array _ => .sequence
  | .object _ => .map

def Found.text : Found → String
  | .null => "null"
  | .bool b => if b then "boolean `true`" else "boolean `false`"
  | .number (.whole n) => "integer `" ++ String.ofList (Number.whole n).text ++ "`"
  | .number n => "floating point `" ++ String.ofList n.text ++ "`"
  | .string s => "string " ++ Text.quoted s
  | .sequence => "sequence"
  | .map => "map"

inductive Mismatch where
  | missingField (name : String)
  | repeatedField (name : String)
  | wrongType (found : Found) (expected : String)
  /-- An array stands for a record and lacks a field that has no default. -/
  | tooShort (length : Nat) (expected : String)
  deriving DecidableEq, Repr

def Mismatch.message : Mismatch → String
  | .missingField name => "missing field `" ++ name ++ "`"
  | .repeatedField name => "duplicate field `" ++ name ++ "`"
  | .wrongType found expected => "invalid type: " ++ found.text ++ ", expected " ++ expected
  | .tooShort n expected =>
    "invalid length " ++ String.ofList (Nat.toDigits 10 n) ++ ", expected " ++ expected

inductive Fault where
  | truncated
  | malformed
  | mismatch (m : Mismatch)
  deriving DecidableEq, Repr

def Fault.message : Fault → String
  | .truncated => "eof"
  | .malformed => "syntax"
  | .mismatch m => "data: " ++ m.message

end ContentTypes.Json
