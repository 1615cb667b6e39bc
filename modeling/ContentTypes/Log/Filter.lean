import ContentTypes.Log.Directive
/-!
Which events are shown. A filter is a list of directives, and of those that fit an event the most
specific one decides.
-/

namespace ContentTypes.Log

abbrev Filter := List Directive

namespace Filter

def default : Filter :=
  [{ target := some Topic.run.target, rank := Level.info.rank }]

/-- The filter that a text of directives with commas between them gives; an empty text asks for
errors. The first fault decides. -/
def ofText (text : String) : Except Directive.Fault Filter :=
  match (text.splitOn ",").filter (· ≠ "") with
  | [] => .ok [{ rank := Level.error.rank }]
  | words => words.mapM Directive.ofText

/-- The filter of a run. A malformed text does not count, and one that is cut inside a character
leaves no filter at all. -/
def ofSetting? (setting : Option String) : Option Filter :=
  match setting.map ofText with
  | none | some (.error .malformed) => some default
  | some (.error .split) => none
  | some (.ok f) => some f

/-- The most specific directive that fits, of several such the last. -/
def deciding? (f : Filter) (e : Event) : Option Directive :=
  (f.filter (·.fits e)).foldl
    (fun best d =>
      match best with
      | some b => if d.specificity < b.specificity then some b else some d
      | none => some d)
    none

def admits (f : Filter) (e : Event) : Bool :=
  (f.deciding? e).any fun d => e.level.rank ≤ d.rank

end Filter
end ContentTypes.Log
