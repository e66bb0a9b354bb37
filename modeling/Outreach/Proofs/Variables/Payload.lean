import Mathlib.Data.List.Forall2
import Outreach.Proofs.Variables.Filling

/-!
# What becomes of a payload

A payload is filled in text by text. It keeps its shape, the names of its members and all that is no
text, and a text changes only if the path of one of its placeholders leads somewhere
(`Template.FilledAs`). What comes out depends on nothing but the values that the named paths lead
to, and so on no variable that begins none of them (`Template.interpolateValue_frame`).
-/

namespace Outreach

/-! ## Paths and variables -/

namespace Variables

theorem resolve?_nil (path : String) : resolve? [] path = none := by
  unfold resolve?
  split <;> rfl

/-- The value of a path depends on the variable that the path begins with, and on no other. -/
theorem resolve?_congr {vars others : Variables} {path : String}
    (h : ∀ name ∈ (Path.segments path).head?, Members.get? name vars = Members.get? name others) :
    vars.resolve? path = others.resolve? path := by
  unfold resolve?
  split
  next => rfl
  next name rest hsegments => rw [h name (by simp [hsegments])]

end Variables

/-- A path that a placeholder of a text holds. -/
def Template.Names (template path : String) : Prop :=
  ∃ (p : Placeholder) (place : Nat), p.StandsAt template.toList place ∧ String.ofList p.path = path

/-! ## Texts of a value -/

namespace Json

/-- Induction over values: what holds of the items of an array, or of the values of an object, holds
of the whole. -/
theorem induct {motive : Json → Prop} (null : motive .null) (bool : ∀ b, motive (.bool b))
    (number : ∀ n, motive (.number n)) (string : ∀ s, motive (.string s))
    (array : ∀ items : List Json, (∀ item ∈ items, motive item) → motive (.array items))
    (object : ∀ members : List (String × Json), (∀ entry ∈ members, motive entry.2) →
      motive (.object members)) : ∀ v, motive v
  | .null => null
  | .bool b => bool b
  | .number n => number n
  | .string s => string s
  | .array items => array items fun item hmem =>
    have hlt : sizeOf item < sizeOf (Json.array items) :=
      Nat.lt_of_lt_of_le (List.sizeOf_lt_of_mem hmem) (by simp)
    induct null bool number string array object item
  | .object members => object members fun (name, value) hmem =>
    have hlt : sizeOf value < sizeOf (Json.object members) := by
      have hentry := List.sizeOf_lt_of_mem hmem
      simp only [Prod.mk.sizeOf_spec] at hentry
      simp only [Json.object.sizeOf_spec]
      omega
    induct null bool number string array object value
termination_by v => sizeOf v
decreasing_by
  · exact hlt
  · exact hlt

/-- A text that stands in a value. The names of members are none. -/
inductive Holds : Json → String → Prop
  | text (s : String) : Holds (.string s) s
  | item {items : List Json} {item : Json} {s : String} (hmem : item ∈ items) (h : Holds item s) :
    Holds (.array items) s
  | member {members : List (String × Json)} {entry : String × Json} {s : String}
    (hmem : entry ∈ members) (h : Holds entry.2 s) : Holds (.object members) s

/-- A path that a placeholder in a text of a value holds. -/
def Names (v : Json) (path : String) : Prop :=
  ∃ s, v.Holds s ∧ Template.Names s path

/-- Two values of one shape, with the same names of members and the same in everything but their
texts, which are related one by one. -/
inductive Alike (related : String → String → Prop) : Json → Json → Prop
  | null : Alike related .null .null
  | bool (b : Bool) : Alike related (.bool b) (.bool b)
  | number (n : Number) : Alike related (.number n) (.number n)
  | string {s t : String} (h : related s t) : Alike related (.string s) (.string t)
  | array {items others : List Json} (h : List.Forall₂ (Alike related) items others) :
    Alike related (.array items) (.array others)
  | object {members others : List (String × Json)}
    (hnames : members.map Prod.fst = others.map Prod.fst)
    (hvalues : List.Forall₂ (Alike related) (members.map Prod.snd) (others.map Prod.snd)) :
    Alike related (.object members) (.object others)

end Json

/-! ## Texts -/

namespace Template

open Placeholder (read? read?_eq_some_iff standsAt_append_iff)

variable {cs : List Char} {p : Placeholder} {vars others : Variables} {template path : String}

/-- A placeholder among the pieces of a text stands somewhere in it. -/
theorem exists_standsAt (h : Piece.placeholder p ∈ pieces cs) : ∃ place, p.StandsAt cs place := by
  fun_induction pieces cs with
  | case1 cs q rest hread ih =>
    obtain ⟨hq, rfl⟩ := read?_eq_some_iff.mp hread
    rcases List.mem_cons.mp h with hfirst | hrest
    · obtain rfl := Piece.placeholder.inj hfirst
      exact ⟨0, hq, by simp⟩
    · obtain ⟨place, hstands⟩ := ih hrest
      exact ⟨_, (standsAt_append_iff q.written).mpr hstands⟩
  | case2 => cases h
  | case3 c rest hread ih =>
    rcases List.mem_cons.mp h with hfirst | hrest
    · cases hfirst
    · obtain ⟨place, hstands⟩ := ih hrest
      exact ⟨_, (standsAt_append_iff [c]).mpr hstands⟩

/-- What becomes of a text depends on nothing but the values of the paths that it names. -/
theorem interpolate_congr
    (h : ∀ path, Names template path → vars.resolve? path = others.resolve? path) :
    interpolate template vars = interpolate template others := by
  rw [interpolate_eq, interpolate_eq, fill, fill, List.flatMap_def, List.flatMap_def]
  refine congrArg (String.ofList ∘ List.flatten) (List.map_congr_left fun piece hpiece => ?_)
  cases piece with
  | character c => rfl
  | placeholder p =>
    obtain ⟨place, hstands⟩ := exists_standsAt hpiece
    rw [Piece.filled, h _ ⟨p, place, hstands, rfl⟩, Piece.filled]

/-- Without variables every text stays as it is. -/
theorem interpolate_nil (template : String) : interpolate template [] = template := by
  have hpieces : Piece.filled [] = Piece.written := by
    funext piece
    cases piece with
    | character c => rfl
    | placeholder p => rw [Piece.filled, Variables.resolve?_nil, Piece.written]
  rw [interpolate_eq, fill, hpieces, written_pieces, String.ofList_toList]

/-- A text and what becomes of it: it changes only if a path that it names leads somewhere. -/
structure FilledAs (vars : Variables) (template text : String) : Prop where
  eq_interpolate : text = interpolate template vars
  exists_resolved : text ≠ template →
    ∃ path, Names template path ∧ (vars.resolve? path).isSome = true

theorem filledAs_interpolate (vars : Variables) (template : String) :
    FilledAs vars template (interpolate template vars) where
  eq_interpolate := rfl
  exists_resolved hne := by
    by_contra hnone
    -- Where no named path leads anywhere, the variables may as well not be there.
    refine hne ((interpolate_congr fun path hpath => ?_).trans (interpolate_nil template))
    rw [Variables.resolve?_nil]
    exact Option.not_isSome_iff_eq_none.mp fun hsome => hnone ⟨path, hpath, hsome⟩

/-! ## Payloads -/

theorem interpolateItems_eq (vars : Variables) (items : List Json) :
    interpolateItems vars items = items.map (interpolateValue vars) := by
  induction items with
  | nil => rfl
  | cons item rest ih => rw [interpolateItems, ih, List.map_cons]

theorem interpolateMembers_eq (vars : Variables) (members : Members Json) :
    interpolateMembers vars members = members.mapValues (interpolateValue vars) := by
  induction members with
  | nil => rfl
  | cons entry rest ih =>
    obtain ⟨name, value⟩ := entry
    rw [interpolateMembers, ih]
    rfl

variable {v : Json}

/-- What becomes of a payload depends on nothing but what becomes of its texts. -/
theorem interpolateValue_congr
    (h : ∀ s, v.Holds s → interpolate s vars = interpolate s others) :
    interpolateValue vars v = interpolateValue others v := by
  induction v using Json.induct with
  | null => rfl
  | bool b => rfl
  | number n => rfl
  | string s => exact congrArg Json.string (h s (.text s))
  | array items ih =>
    rw [interpolateValue, interpolateValue, interpolateItems_eq, interpolateItems_eq]
    refine congrArg Json.array (List.map_congr_left fun item hmem => ?_)
    exact ih item hmem fun s hs => h s (.item hmem hs)
  | object members ih =>
    rw [interpolateValue, interpolateValue, interpolateMembers_eq, interpolateMembers_eq]
    refine congrArg Json.object (List.map_congr_left fun entry hmem => ?_)
    rw [ih entry hmem fun s hs => h s (.member hmem hs)]

/-- A payload keeps its shape, and of its texts comes what comes of a text. -/
theorem alike_interpolateValue (vars : Variables) (v : Json) :
    v.Alike (FilledAs vars) (interpolateValue vars v) := by
  induction v using Json.induct with
  | null => exact .null
  | bool b => exact .bool b
  | number n => exact .number n
  | string s => exact .string (filledAs_interpolate vars s)
  | array items ih =>
    rw [interpolateValue, interpolateItems_eq]
    exact .array (List.forall₂_map_right_iff.mpr (List.forall₂_same.mpr ih))
  | object members ih =>
    rw [interpolateValue, interpolateMembers_eq, Members.mapValues]
    refine .object (by simp) ?_
    rw [List.map_map, List.forall₂_map_left_iff, List.forall₂_map_right_iff, List.forall₂_same]
    exact ih

/-- **A payload is filled in without regard to what it does not name.** Of a payload comes a value
of the same shape, with the same names of members and the same in everything but its texts; a text
changes only if a path that it names leads somewhere. Two sets of variables in which the named paths
lead to the same, or nowhere, give the same, and so do two that agree in the variables with which the
named paths begin. -/
theorem interpolateValue_frame (v : Json) (vars : Variables) :
    v.Alike (FilledAs vars) (interpolateValue vars v) ∧
    (∀ others : Variables, (∀ path, v.Names path → vars.resolve? path = others.resolve? path) →
      interpolateValue vars v = interpolateValue others v) ∧
    ∀ others : Variables, (∀ path, v.Names path → ∀ name ∈ (Path.segments path).head?,
      Members.get? name vars = Members.get? name others) →
        interpolateValue vars v = interpolateValue others v := by
  have hpaths : ∀ others : Variables,
      (∀ path, v.Names path → vars.resolve? path = others.resolve? path) →
      interpolateValue vars v = interpolateValue others v := fun others h =>
    interpolateValue_congr fun s hs => interpolate_congr fun path hpath => h path ⟨s, hs, hpath⟩
  refine ⟨alike_interpolateValue vars v, hpaths, fun others h => hpaths others fun path hpath => ?_⟩
  exact Variables.resolve?_congr (h path hpath)

/-- The name of a member stays, though a placeholder stands in it. -/
example : interpolateValue [("a", .bool true)]
    (.object [("\x7b\x7ba\x7d\x7d", .string "\x7b\x7ba\x7d\x7d")]) =
      .object [("\x7b\x7ba\x7d\x7d", .string "true")] := by cbv

end Template

end Outreach
