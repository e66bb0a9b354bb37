import Outreach.Text.Word
import Outreach.Variables.Coercion

/-!
# Templates

A template is a text with placeholders: a path between double braces, with or without white space
around it. `Template.pieces` takes a text apart into placeholders and the characters outside them,
`writtenPieces` puts them together again, and `interpolate` puts in place of every placeholder the
value that its path leads to. A placeholder whose path leads nowhere stays as it stands, and what
was put in is not looked at again.
-/

namespace Outreach

/-- A path between double braces, with the white space on either side of it. -/
structure Placeholder where
  before : List Char
  path : List Char
  behind : List Char
  deriving DecidableEq, Repr

namespace Placeholder

/-- The text of a placeholder. -/
def written (p : Placeholder) : List Char :=
  '\x7b' :: '\x7b' :: (p.before ++ p.path ++ p.behind ++ ['\x7d', '\x7d'])

/-- Whether a character may stand in a path. -/
def isPathChar (c : Char) : Bool :=
  Text.isWordChar c || c = '.'

/-- Words with single points between them. -/
def isPath (path : List Char) : Bool :=
  (Text.split '.' path).all fun word => !word.isEmpty && word.all Text.isWordChar

/-- The placeholder at the start of a text, and what follows it. -/
def read? : List Char → Option (Placeholder × List Char)
  | '\x7b' :: '\x7b' :: cs =>
    let before := cs.takeWhile Text.isBlank
    let fromPath := cs.dropWhile Text.isBlank
    let path := fromPath.takeWhile isPathChar
    let fromBehind := fromPath.dropWhile isPathChar
    let behind := fromBehind.takeWhile Text.isBlank
    match fromBehind.dropWhile Text.isBlank with
    | '\x7d' :: '\x7d' :: rest => if isPath path then some (⟨before, path, behind⟩, rest) else none
    | _ => none
  | _ => none

/-- Reading takes the placeholder off the text and leaves the rest. -/
theorem eq_of_read? {cs rest : List Char} {p : Placeholder} (h : read? cs = some (p, rest)) :
    cs = p.written ++ rest := by
  unfold read? at h
  split at h
  · next cs =>
    simp only at h
    split at h
    · next rest' hrest =>
      split at h
      · obtain ⟨rfl, rfl⟩ := Prod.mk.inj (Option.some.inj h)
        have hbehind := List.takeWhile_append_dropWhile (p := Text.isBlank)
          (l := (cs.dropWhile Text.isBlank).dropWhile isPathChar)
        have hpath := List.takeWhile_append_dropWhile (p := isPathChar)
          (l := cs.dropWhile Text.isBlank)
        have hbefore := List.takeWhile_append_dropWhile (p := Text.isBlank) (l := cs)
        rw [hrest] at hbehind
        rw [← hbehind] at hpath
        rw [← hpath] at hbefore
        conv => lhs; rw [← hbefore]
        simp [written]
      · simp at h
    · simp at h
  · simp at h

theorem length_rest_lt {cs rest : List Char} {p : Placeholder} (h : read? cs = some (p, rest)) :
    rest.length < cs.length := by
  have := congrArg List.length (eq_of_read? h)
  simp [written] at this
  omega

end Placeholder

/-- A part of a template. -/
inductive Piece where
  | character (c : Char)
  | placeholder (p : Placeholder)
  deriving DecidableEq, Repr

namespace Piece

/-- The text of a piece. -/
def written : Piece → List Char
  | .character c => [c]
  | .placeholder p => p.written

/-- A piece with its placeholder filled in, if its path leads somewhere. -/
def filled (vars : Variables) : Piece → List Char
  | .character c => [c]
  | .placeholder p =>
    match vars.resolve? (String.ofList p.path) with
    | some value => (Coercion.inserted value).toList
    | none => p.written

end Piece

namespace Template

/-- The placeholders of a text and the characters outside them, in order. -/
def pieces (cs : List Char) : List Piece :=
  match _h : Placeholder.read? cs with
  | some (p, rest) => .placeholder p :: pieces rest
  | none =>
    match cs with
    | [] => []
    | c :: rest => .character c :: pieces rest
termination_by cs.length
decreasing_by
  · exact Placeholder.length_rest_lt _h
  · simp

/-- The pieces of a text make up the text. -/
theorem written_pieces (cs : List Char) : (pieces cs).flatMap Piece.written = cs := by
  fun_induction pieces cs with
  | case1 cs p rest h ih => simp [Piece.written, ih, ← Placeholder.eq_of_read? h]
  | case2 => simp
  | case3 c rest h ih => simp [Piece.written, ih]

/-- A text with its placeholders filled in. -/
def fill (cs : List Char) (vars : Variables) : List Char :=
  (pieces cs).flatMap (Piece.filled vars)

/-- Whether a text holds the two braces with which a placeholder begins. -/
def mayHoldPlaceholder (template : String) : Bool :=
  Text.occursIn ['\x7b', '\x7b'] template.toList

/-- A template with its placeholders filled in; one that holds none is not looked through. -/
def interpolate (template : String) (vars : Variables) : String :=
  if mayHoldPlaceholder template then String.ofList (fill template.toList vars)
  else template

mutual

/-- A value with every text in it filled in; names of members stay as they are. -/
def interpolateValue (vars : Variables) : Json → Json
  | .string s => .string (interpolate s vars)
  | .array items => .array (interpolateItems vars items)
  | .object members => .object (interpolateMembers vars members)
  | value => value

def interpolateItems (vars : Variables) : List Json → List Json
  | [] => []
  | item :: rest => interpolateValue vars item :: interpolateItems vars rest

def interpolateMembers (vars : Variables) : List (String × Json) → List (String × Json)
  | [] => []
  | (name, value) :: rest =>
    (name, interpolateValue vars value) :: interpolateMembers vars rest

end

end Template

end Outreach
