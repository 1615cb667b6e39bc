import ContentTypes.Config.Basic
import ContentTypes.Text.Plain
/-!
The command line. Options take a value, flags do not, and every other argument is a target. The
value of an option is looked at only when the next option, flag or target comes, or at the end;
until then a defect that shows later may come first.
-/

namespace ContentTypes

structure Arguments where
  targets : List String := []
  root : Option Path := none
  out : Option Path := none
  frontendOut : Option Path := none
  fileName : Option String := none
  onCollision : Option CollisionPolicy := none
  compact : Bool := false
  strict : Bool := false
  config : Option Path := none
  deriving DecidableEq, Repr

namespace Arguments

inductive OptionName where
  | root
  | out
  | frontendOut
  | fileName
  | onCollision
  | config
  deriving DecidableEq, Repr

namespace OptionName

def all : List OptionName :=
  [.root, .out, .frontendOut, .fileName, .onCollision, .config]

/-- The name after the two dashes. -/
def word : OptionName → String
  | .root => "root"
  | .out => "out"
  | .frontendOut => "frontend-out"
  | .fileName => "file-name"
  | .onCollision => "on-collision"
  | .config => "config"

/-- What stands for the value in messages. -/
def placeholder : OptionName → String
  | .root => "ROOT"
  | .out => "OUT"
  | .frontendOut => "FRONTEND_OUT"
  | .fileName => "FILE_NAME"
  | .onCollision => "POLICY"
  | .config => "FILE"

def text (o : OptionName) : String :=
  "--" ++ o.word ++ " <" ++ o.placeholder ++ ">"

def find? (word : String) : Option OptionName :=
  all.find? (·.word = word)

end OptionName

inductive FlagName where
  | compact
  | strict
  | help
  | version
  deriving DecidableEq, Repr

namespace FlagName

def all : List FlagName :=
  [.compact, .strict, .help, .version]

def word : FlagName → String
  | .compact => "compact"
  | .strict => "strict"
  | .help => "help"
  | .version => "version"

def text (f : FlagName) : String :=
  "--" ++ f.word

def find? (word : String) : Option FlagName :=
  all.find? (·.word = word)

/-- Flags of one letter after one dash. -/
def ofLetter? : Char → Option FlagName
  | 'h' => some .help
  | 'V' => some .version
  | _ => none

end FlagName

inductive Defect where
  | unknown (text : String)
  | missingValue (o : OptionName)
  | repeatedOption (o : OptionName)
  | repeatedFlag (f : FlagName)
  | valueForFlag (value : String) (f : FlagName)
  | badPolicy (value : String) (o : OptionName) (e : UnknownPolicy)
  deriving DecidableEq, Repr

/-- A part of a message that a terminal sets off. -/
def marked (s : String) : String :=
  "\x1b[33m" ++ s ++ "\x1b[0m"

/-- What is wrong, for a terminal. -/
def Defect.styled : Defect → String
  | .unknown text => "unexpected argument '" ++ marked text ++ "' found"
  | .missingValue o =>
    "a value is required for '" ++ marked o.text ++ "' but none was supplied"
  | .repeatedOption o => "the argument '" ++ marked o.text ++ "' cannot be used multiple times"
  | .repeatedFlag f => "the argument '" ++ marked f.text ++ "' cannot be used multiple times"
  | .valueForFlag value f =>
    "unexpected value '" ++ marked value ++ "' for '" ++ marked f.text
      ++ "' found; no more were expected"
  | .badPolicy value o e =>
    "invalid value '" ++ marked value ++ "' for '" ++ marked o.text ++ "': " ++ e.message

/-- Where a defect points to. -/
def helpHint : String :=
  "\n\nFor more information, try '" ++ marked (FlagName.text .help) ++ "'."

/-- What is wrong and where to find help, without what only a terminal understands: neither the
marks nor control sequences that the arguments bring along are left. -/
def Defect.message (d : Defect) : String :=
  Text.plain (d.styled ++ helpHint)

/-- Why reading the command line ends without arguments for a run. -/
inductive Stop where
  | defect (d : Defect)
  | help
  | version
  deriving DecidableEq, Repr

/-- The path that a value gives; it may not be empty. -/
def path (o : OptionName) (value : String) : Except Stop Path :=
  if value = "" then .error (.defect (.missingValue o)) else .ok (.ofString value)

/-- Sets an option that has no value yet. -/
def once {α : Type} (o : OptionName) (old : Option α) (new : Except Stop α)
    (put : α → Arguments) : Except Stop Arguments :=
  if old.isSome then .error (.defect (.repeatedOption o)) else new.map put

def setOption (a : Arguments) (o : OptionName) (value : String) : Except Stop Arguments :=
  match o with
  | .root => once o a.root (path o value) fun p => { a with root := some p }
  | .out => once o a.out (path o value) fun p => { a with out := some p }
  | .frontendOut => once o a.frontendOut (path o value) fun p => { a with frontendOut := some p }
  | .fileName => once o a.fileName (.ok value) fun s => { a with fileName := some s }
  | .onCollision =>
    once o a.onCollision
      (match CollisionPolicy.ofString value with
        | .ok p => .ok p
        | .error e => .error (.defect (.badPolicy value o e)))
      fun p => { a with onCollision := some p }
  | .config => once o a.config (path o value) fun p => { a with config := some p }

def setFlag (a : Arguments) (f : FlagName) : Except Stop Arguments :=
  match f with
  | .compact =>
    if a.compact then .error (.defect (.repeatedFlag f)) else .ok { a with compact := true }
  | .strict =>
    if a.strict then .error (.defect (.repeatedFlag f)) else .ok { a with strict := true }
  | .help => .error .help
  | .version => .error .version

/-! ### Reading -/

/-- What has been read so far. -/
structure Reading where
  arguments : Arguments := {}
  /-- An option that has come but is not yet set, and its value if that has come too. -/
  pending : Option (OptionName × Option String) := none
  /-- Whether two dashes alone have come, after which everything is a target. -/
  targetsOnly : Bool := false
  deriving DecidableEq, Repr

namespace Reading

/-- Sets the option that is pending. -/
def settle (r : Reading) : Except Stop Reading :=
  match r.pending with
  | none => .ok r
  | some (o, none) => .error (.defect (.missingValue o))
  | some (o, some value) =>
    (r.arguments.setOption o value).map fun a => { r with arguments := a, pending := none }

/-- Settles what is pending and changes the arguments. -/
def change (r : Reading) (f : Arguments → Except Stop Arguments) : Except Stop Reading :=
  match r.settle with
  | .error s => .error s
  | .ok r => (f r.arguments).map fun a => { r with arguments := a }

/-- An argument with two dashes, its name and, after a sign of equality, its value. -/
def long (r : Reading) (name : String) (value : Option String) : Except Stop Reading :=
  match OptionName.find? name, FlagName.find? name, value with
  | some o, _, some v => r.change (·.setOption o v)
  | some o, _, none => r.settle.map fun r => { r with pending := some (o, none) }
  | none, some f, some v => .error (.defect (.valueForFlag v f))
  | none, some f, none => r.change (·.setFlag f)
  | none, none, _ => .error (.defect (.unknown ("--" ++ name)))

/-- An argument with one dash: flags of one letter each, of which every one ends the reading. -/
def short (r : Reading) (letter : Char) : Except Stop Reading :=
  match FlagName.ofLetter? letter with
  | some f => r.change (·.setFlag f)
  | none => .error (.defect (.unknown (String.ofList ['-', letter])))

/-- The value of a pending option, or a target. -/
def plain (r : Reading) (argument : String) : Except Stop Reading :=
  match r.pending, r.targetsOnly with
  | some (o, none), false => .ok { r with pending := some (o, some argument) }
  | _, _ => r.change fun a => .ok { a with targets := a.targets ++ [argument] }

def step (r : Reading) (argument : String) : Except Stop Reading :=
  if r.targetsOnly then r.plain argument
  else
    match argument.toList with
    | ['-', '-'] => .ok { r with targetsOnly := true }
    | '-' :: '-' :: cs =>
      let (name, rest) := cs.span (· ≠ '=')
      r.long (String.ofList name) (if rest = [] then none else some (String.ofList rest.tail))
    | '-' :: letter :: _ => r.short letter
    | _ => r.plain argument

end Reading

def parse (arguments : List String) : Except Stop Arguments := do
  let r ← arguments.foldlM Reading.step {}
  let r ← r.settle
  .ok r.arguments

/-! ### Meaning -/

def frontendTarget : String := "frontend"

/-- The targets that are not known. -/
def unknownTargets (a : Arguments) : List String :=
  a.targets.filter (· ≠ frontendTarget)

/-- What the arguments set, as the configuration layer above all others. -/
def overrides (a : Arguments) : Config where
  backendOut := a.out
  frontendOut := a.frontendOut
  fileName := a.fileName
  layout := if a.compact then some .compact else none
  frontend := if frontendTarget ∈ a.targets then some true else none
  onCollision := a.onCollision

end Arguments
end ContentTypes
