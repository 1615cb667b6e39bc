import ContentTypes.Binary64
import ContentTypes.Table
/-!
JSON values. An object is a list of its fields in the order in which their names first came.
-/

namespace ContentTypes

namespace Json

/-- Whole numbers of the 64-bit ranges stay exact, all others are values of the binary format
with a sign, so that zero has two signs. -/
inductive Number where
  | whole (n : Int)
  | real (negative : Bool) (magnitude : Binary64)
  deriving DecidableEq, Repr

def Number.isZero : Number → Bool
  | .whole n => n = 0
  | .real _ x => x.isZero

end Json

inductive Json where
  | null
  | bool (b : Bool)
  | number (n : Json.Number)
  | string (s : String)
  | array (items : List Json)
  | object (fields : List (String × Json))
  deriving Repr, Inhabited

namespace Json

/-- The value of a field; only objects have fields. -/
def field? (name : String) : Json → Option Json
  | .object fields => Table.get? name fields
  | _ => none

def asString? : Json → Option String
  | .string s => some s
  | _ => none

def asArray? : Json → Option (List Json)
  | .array items => some items
  | _ => none

/-- Whether a value counts as set: null, `false`, the zeros and the empty text do not. -/
def isTruthy : Json → Bool
  | .null => false
  | .bool b => b
  | .number n => !n.isZero
  | .string s => !s.isEmpty
  | .array _ => true
  | .object _ => true

end Json
end ContentTypes
