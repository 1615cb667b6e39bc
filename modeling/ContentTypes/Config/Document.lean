import ContentTypes.Config.Basic
import ContentTypes.Toml.Reader
/-!
What a TOML document says as a configuration layer. The values stand in three sections. A section
is a table of known keys, or an array of their values in the order below, which may stop early
and whose further items do not count.
-/

namespace ContentTypes.Config

/-- Puts a value into a layer, if the value fits. -/
abbrev Setter := Toml.Value → Config → Option Config

def text? : Toml.Value → Option String
  | .string s => some s
  | _ => none

def path? (v : Toml.Value) : Option Path :=
  (text? v).map Path.ofString

def boolean? : Toml.Value → Option Bool
  | .boolean b => some b
  | _ => none

/-- Whether a value may stand after a word that is written as a key. -/
def isBlankValue : Toml.Value → Bool
  | .table _ [] => true
  | .array [] => true
  | _ => false

/-- One of some words: as a string, or as the only key of a table, which then has no content. -/
def word? {α : Type} (words : List (String × α)) : Toml.Value → Option α
  | .string s => words.lookup s
  | .table _ [(key, v)] => if isBlankValue v then words.lookup key else none
  | _ => none

def layoutWords : List (String × Layout) :=
  [("compact", .compact), ("pretty", .pretty)]

def policyWords : List (String × CollisionPolicy) :=
  CollisionPolicy.all.map fun p => (p.word, p)

/-- A setter for what `read` makes of a value. -/
def setting {α : Type} (read : Toml.Value → Option α) (put : α → Config → Config) : Setter :=
  fun v c => (read v).map (put · c)

/-- A setter for the keys of a section at once. -/
def record (keys : List (String × Setter)) : Setter
  | .table _ fields, c => fields.foldlM (fun c f => do (← keys.lookup f.1) f.2 c) c
  | .array items, c => (items.zip keys).foldlM (fun c e => e.2.2 e.1 c) c
  | .tables elements, c =>
    ((elements.map (Toml.Value.table .header)).zip keys).foldlM (fun c e => e.2.2 e.1 c) c
  | _, _ => none

def pathKeys : List (String × Setter) :=
  [("entities", setting path? fun p c => { c with entities := some p }),
    ("components", setting path? fun p c => { c with components := some p }),
    ("backend_out", setting path? fun p c => { c with backendOut := some p }),
    ("frontend_out", setting path? fun p c => { c with frontendOut := some p })]

def outputKeys : List (String × Setter) :=
  [("file_name", setting text? fun s c => { c with fileName := some s }),
    ("layout", setting (word? layoutWords) fun l c => { c with layout := some l }),
    ("frontend", setting boolean? fun b c => { c with frontend := some b })]

def generateKeys : List (String × Setter) :=
  [("on_collision", setting (word? policyWords) fun p c => { c with onCollision := some p })]

def sections : List (String × Setter) :=
  [("paths", record pathKeys), ("output", record outputKeys), ("generate", record generateKeys)]

/-- The layer that a text in TOML gives, if it is one. -/
def ofText? (text : String) : Option Config := do
  record sections (← Toml.parse? text) empty

end ContentTypes.Config
