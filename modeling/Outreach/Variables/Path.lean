import Outreach.Json.Basic
import Outreach.Number.Numeral
import Outreach.Text.Split

/-!
# Variables and paths to them

A run keeps its variables under names. A path leads to a value inside them: its first segment names
a variable, every further one a member of an object or the index of an item in an array.
-/

namespace Outreach

/-- The variables of a run. -/
abbrev Variables := Members Json

namespace Path

/-- The segments of a path. -/
def segments (path : String) : List String :=
  (Text.split '.' path.toList).map String.ofList

/-- The index that a segment stands for: digits, perhaps behind a plus, below `2 ^ 64`. -/
def index? (segment : String) : Option Nat :=
  Numeral.below? (Nat.pow 2 64) segment.toList

/-- The value that a segment leads to from a value. -/
def step? (value : Json) (segment : String) : Option Json :=
  match value with
  | .object members => Members.get? segment members
  | .array items => (index? segment).bind fun i => items[i]?
  | _ => none

/-- The value that segments lead to from a value. -/
def follow? : (segments : List String) → Json → Option Json
  | [], value => some value
  | segment :: rest, value => (step? value segment).bind (follow? rest)

end Path

namespace Variables

/-- The value that a path leads to; none where a segment leads nowhere. -/
def resolve? (vars : Variables) (path : String) : Option Json :=
  match Path.segments path with
  | [] => none
  | name :: rest => (Members.get? name vars).bind (Path.follow? rest)

end Variables

end Outreach
