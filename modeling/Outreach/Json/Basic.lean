import Outreach.Number.Double
import Outreach.Json.Members

/-!
# Values

The values that flow through a funnel: what a definition holds as free-form data, what a run keeps
in its variables and what a service answers. A number is a whole number between `-2 ^ 63` and
`2 ^ 64 - 1`, or a double; the two are kept apart because they are written differently.
-/

namespace Outreach

/-- A number as data hold it. -/
inductive Number where
  | int (value : Int)
  | double (value : Double)
  deriving DecidableEq

namespace Number

/-- The number as a double, rounded if need be. -/
def toDouble : Number → Double
  | .int i => .ofInt i
  | .double d => d

end Number

/-- A free-form value. -/
inductive Json where
  | null
  | bool (value : Bool)
  | number (value : Number)
  | string (value : String)
  | array (items : List Json)
  | object (members : List (String × Json))

namespace Json

instance : Inhabited Json := ⟨.null⟩

/-- A whole number as a value. -/
def int (i : Int) : Json :=
  .number (.int i)

/-- A count as a value. -/
def nat (n : Nat) : Json :=
  .number (.int n)

/-- A double as a value. What is not a finite number has no written form and becomes null. -/
def double : Double → Json
  | .finite negative mantissa exponent h => .number (.double (.finite negative mantissa exponent h))
  | _ => .null

/-- An object from entries in any order. -/
def record (entries : List (String × Json)) : Json :=
  .object (Members.ofEntries entries)

/-- A value or null. -/
def orNull : Option Json → Json
  | none => .null
  | some v => v

/-- A text or null. -/
def textOrNull (text : Option String) : Json :=
  orNull (text.map .string)

/-- The member of an object; none of anything else. -/
def member? (name : String) : Json → Option Json
  | .object members => Members.get? name members
  | _ => none

def isNull : Json → Bool
  | .null => true
  | _ => false

mutual

/-- Equality of values, number by number and member by member. -/
def beq : Json → Json → Bool
  | .null, .null => true
  | .bool a, .bool b => a == b
  | .number a, .number b => a == b
  | .string a, .string b => a == b
  | .array a, .array b => beqItems a b
  | .object a, .object b => beqMembers a b
  | _, _ => false

def beqItems : List Json → List Json → Bool
  | [], [] => true
  | a :: as, b :: bs => beq a b && beqItems as bs
  | _, _ => false

def beqMembers : List (String × Json) → List (String × Json) → Bool
  | [], [] => true
  | (k, a) :: as, (l, b) :: bs => k == l && beq a b && beqMembers as bs
  | _, _ => false

end

instance : BEq Json := ⟨beq⟩

end Json

end Outreach
