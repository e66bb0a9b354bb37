/-!
# Classes of characters

A class is given by its boundaries, the code points at which membership changes, in ascending
order: below the first nothing belongs to it, from the first to before the second everything does,
and so on. A code point belongs to the class when an odd number of boundaries lie at or below it.
-/

namespace Outreach

/-- A set of code points, by the points at which membership changes. -/
abbrev CharClass := List Nat

namespace CharClass

/-- Membership, told that it is `inside` before the first boundary left. -/
def memberFrom (inside : Bool) (point : Nat) : CharClass → Bool
  | [] => inside
  | boundary :: rest => if point < boundary then inside else memberFrom (!inside) point rest

/-- Whether a character belongs to the class. -/
def member (cls : CharClass) (c : Char) : Bool :=
  memberFrom false c.toNat cls

end CharClass

end Outreach
