/-!
What a run reports on the way. Every event has a level and stands under a target; its text is a
message, after which named fields may follow.
-/

namespace ContentTypes.Log

inductive Level where
  | error
  | warn
  | info
  | debug
  | trace
  deriving DecidableEq, Repr

namespace Level

/-- How much has to be asked for until events of this level are shown. -/
def rank : Level → Nat
  | .error => 1
  | .warn => 2
  | .info => 3
  | .debug => 4
  | .trace => 5

def word : Level → String
  | .error => "ERROR"
  | .warn => "WARN"
  | .info => "INFO"
  | .debug => "DEBUG"
  | .trace => "TRACE"

def all : List Level :=
  [.error, .warn, .info, .debug, .trace]

end Level

/-- What an event is about. -/
inductive Topic where
  | run
  | configuration
  | output
  deriving DecidableEq, Repr

/-- The name under which filters know a topic. -/
def Topic.target : Topic → String
  | .run => "strapi_types"
  | .configuration => "strapi_types::config"
  | .output => "strapi_types::sink"

structure Event where
  level : Level
  topic : Topic
  message : String
  fields : List (String × String) := []
  deriving DecidableEq, Repr

/-- A character of a message, where those that a terminal may take for commands are spelled
out. -/
def shown (c : Char) : List Char :=
  if c = '\x1b' ∨ c = '\x07' ∨ c = '\x08' ∨ c = '\x0c' ∨ c = '\x7f' then
    let digits := Nat.toDigits 16 c.toNat
    ['\\', 'x'] ++ List.replicate (2 - digits.length) '0' ++ digits
  else if 0x80 ≤ c.toNat ∧ c.toNat ≤ 0x9F then
    ['\\', 'u', '\x7b'] ++ Nat.toDigits 16 c.toNat ++ ['\x7d']
  else [c]

/-- The names of all that an event carries, the message included. -/
def Event.fieldNames (e : Event) : List String :=
  "message" :: e.fields.map (·.1)

/-- The message is spelled out for terminals, the fields stand as they are. -/
def Event.text (e : Event) : String :=
  e.level.word ++ " " ++ String.ofList (e.message.toList.flatMap shown)
    ++ String.join (e.fields.map fun f => " " ++ f.1 ++ "=" ++ f.2)

end ContentTypes.Log
