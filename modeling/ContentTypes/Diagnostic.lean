import ContentTypes.Declaration
import ContentTypes.Listing
import ContentTypes.Schema
/-!
What was left out on the way, and why: a place that could not be listed, a unit that gave no
declaration, or a declaration that lost its name to another.
-/

namespace ContentTypes

/-- A schema directory that could not be listed itself. -/
structure DiscoverError where
  directory : Path
  cause : ListError
  deriving DecidableEq, Repr

def DiscoverError.message (e : DiscoverError) : String :=
  "failed to list " ++ e.directory.display ++ ": " ++ e.cause.message

inductive Reason where
  | unlisted (e : DiscoverError)
  | listing (e : ListError)
  | load (e : Schema.LoadError)
  | naming (e : Casing.NamingError)
  | collect (e : Declaration.CollectError)
  | duplicateName
  deriving DecidableEq, Repr

def Reason.message : Reason → String
  | .unlisted e => e.message
  | .listing e => e.message
  | .load e => e.message
  | .naming e => e.message
  | .collect e => e.message
  | .duplicateName => "duplicate declaration name"

structure Diagnostic where
  origin : Origin
  /-- The path or name of what was left out. -/
  unit : String
  reason : Reason
  deriving DecidableEq, Repr

namespace Diagnostic

/-- What the text starts with, in front of the reason. -/
def heading (d : Diagnostic) : String :=
  d.origin.text ++ " " ++ d.unit ++ ": "

def text (d : Diagnostic) : String :=
  d.heading ++ d.reason.message

end Diagnostic
end ContentTypes
