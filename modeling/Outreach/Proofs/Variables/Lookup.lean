import Mathlib.Data.List.Forall2
import Outreach.Proofs.Number.Reading
import Outreach.Proofs.Text.Split
import Outreach.Variables.Path

/-!
# Where a path leads

A value is entered step by step: an object by the name of a member, an array by the index of an item
(`Json.LeadsTo`). A path spells steps, segment by segment, and leads exactly where steps lead that it
spells. So the path that is written of the steps to a value finds that value, and a path that goes on
behind another one goes on below what the other one has found, if that is an object or an array, and
otherwise leads nowhere (`Variables.resolve?_exact`).
-/

namespace Outreach

/-! ## Steps into a value -/

/-- A step into a value: to the member of a name, or to the item at an index, which is a word of the
machine. -/
inductive Path.Step where
  | member (name : String)
  | item (index : UInt64)

namespace Json

/-- A step leads from a value to one that stands in it at once. -/
inductive Opens : Json → Path.Step → Json → Prop
  | member {members : Members Json} {name : String} {v : Json}
    (h : Members.get? name members = some v) : Opens (.object members) (.member name) v
  | item {items : List Json} {index : UInt64} {v : Json} (h : items[index.toNat]? = some v) :
    Opens (.array items) (.item index) v

/-- Steps lead, one behind the other, from a value to one somewhere in it. -/
inductive LeadsTo : Json → List Path.Step → Json → Prop
  | here (v : Json) : LeadsTo v [] v
  | onward {v w u : Json} {step : Path.Step} {rest : List Path.Step} (hfirst : v.Opens step w)
    (hrest : LeadsTo w rest u) : LeadsTo v (step :: rest) u

end Json

namespace Path

namespace Step

/-- The segment that is written for a step. -/
def text : Step → String
  | member name => name
  | item index => Numeral.text index.toNat

/-- A step that a segment can be written for: no point stands in its name. -/
def IsPlain : Step → Prop
  | member name => '.' ∉ name.toList
  | item _ => True

/-- A segment spells a step: a name as it is, and an index by its digits, perhaps behind a plus and
with zeros in front. -/
inductive IsSpelt : String → Step → Prop
  | member {name : String} (hname : '.' ∉ name.toList) : IsSpelt name (.member name)
  | item {segment : String} {sign digits : List Char} {index : UInt64}
    (hsegment : segment.toList = sign ++ digits) (hsign : sign = [] ∨ sign = ['+'])
    (hdigits : Numeral.isNumeral digits = true) (hread : Numeral.read digits = index.toNat) :
    IsSpelt segment (.item index)

variable {segment : String} {step : Step}

theorem IsSpelt.not_mem_point (h : IsSpelt segment step) : '.' ∉ segment.toList := by
  cases h with
  | member hname => exact hname
  | @item sign digits index hsegment hsign hdigits hread =>
    obtain ⟨-, hall⟩ := Numeral.isNumeral_iff.mp hdigits
    rw [hsegment, List.mem_append, not_or]
    refine ⟨?_, fun hpoint => ?_⟩
    · rcases hsign with rfl | rfl <;> decide
    · exact absurd (hall _ hpoint) (by decide)

/-- The segment that is written for a step spells it. -/
theorem isSpelt_text (h : step.IsPlain) : IsSpelt step.text step := by
  cases step with
  | member name => exact .member h
  | item index =>
    have hsegment : (Numeral.text index.toNat).toList = [] ++ Numeral.render index.toNat :=
      String.toList_ofList
    exact .item hsegment (.inl rfl) (Numeral.isNumeral_render _) (Numeral.read_render _)

end Step

/-- A path spells steps: it consists of segments with points between them, and each of them spells
the step in its place. -/
structure Spells (path : String) (steps : List Step) : Prop where
  nonempty : steps ≠ []
  segments : ∃ segments : List String, path = ".".intercalate segments ∧
    List.Forall₂ Step.IsSpelt segments steps

/-- The path that is written for steps. -/
def written (steps : List Step) : String :=
  ".".intercalate (steps.map Step.text)

/-! ## Segments -/

variable {pieces : List String} {path p q : String}

theorem segments_intercalate (hpieces : ∀ piece ∈ pieces, '.' ∉ piece.toList) (hne : pieces ≠ []) :
    segments (".".intercalate pieces) = pieces := by
  have hcut : Text.split '.' (List.intercalate ['.'] (pieces.map String.toList)) =
      pieces.map String.toList :=
    Text.split_intercalate (List.forall_mem_map.mpr hpieces) (mt List.map_eq_nil_iff.mp hne)
  rw [segments, String.toList_intercalate]
  refine (congrArg _ hcut).trans ?_
  simp

theorem intercalate_segments (path : String) : ".".intercalate (segments path) = path := by
  have hlists : (segments path).map String.toList = Text.split '.' path.toList := by
    simp [segments]
  rw [← String.toList_inj, String.toList_intercalate, hlists]
  exact Text.intercalate_split '.' path.toList

theorem segments_ne_nil (path : String) : segments path ≠ [] :=
  mt List.map_eq_nil_iff.mp (Text.split_ne_nil '.' path.toList)

theorem not_mem_of_mem_segments {segment : String} (h : segment ∈ segments path) :
    '.' ∉ segment.toList := by
  obtain ⟨piece, hpiece, rfl⟩ := List.mem_map.mp h
  rw [String.toList_ofList]
  exact Text.not_mem_of_mem_split hpiece

/-- The segments of a path that goes on behind another one. -/
theorem segments_append (p q : String) : segments (p ++ "." ++ q) = segments p ++ segments q := by
  have htext : (p ++ "." ++ q).toList = p.toList ++ '.' :: q.toList := by
    simp
  rw [segments, htext, Text.split_append, List.map_append, segments, segments]

theorem spells_iff {steps : List Step} :
    Spells path steps ↔ List.Forall₂ Step.IsSpelt (segments path) steps := by
  constructor
  · rintro ⟨hne, pieces, rfl, hspelt⟩
    obtain ⟨hpoints, -⟩ :=
      (List.forall₂_and_left _ _).mp (hspelt.imp fun _ _ hstep => ⟨hstep.not_mem_point, hstep⟩)
    have hpieces : pieces ≠ [] := by
      rintro rfl
      exact hne (List.forall₂_nil_left_iff.mp hspelt)
    rwa [segments_intercalate hpoints hpieces]
  · intro h
    refine ⟨?_, segments path, (intercalate_segments path).symm, h⟩
    rintro rfl
    exact segments_ne_nil path (List.forall₂_nil_right_iff.mp h)

/-- The path that is written for steps spells them. -/
theorem spells_written {steps : List Step} (hne : steps ≠ []) (h : ∀ step ∈ steps, step.IsPlain) :
    Spells (written steps) steps := by
  refine ⟨hne, steps.map Step.text, rfl, ?_⟩
  rw [List.forall₂_map_left_iff, List.forall₂_same]
  exact fun step hstep => Step.isSpelt_text (h step hstep)

/-! ## Following segments -/

variable {v w : Json} {segment : String}

/-- The index that a segment stands for is a word of the machine. -/
theorem index?_eq_some_iff {i : Nat} :
    index? segment = some i ↔
      ∃ index : UInt64, index.toNat = i ∧ Step.IsSpelt segment (.item index) := by
  rw [index?, Numeral.below?_eq_some_iff]
  constructor
  · rintro ⟨sign, digits, hsegment, hsign, hdigits, rfl, hlt⟩
    have hindex : (UInt64.ofNat (Numeral.read digits)).toNat = Numeral.read digits :=
      UInt64.toNat_ofNat_of_lt' hlt
    exact ⟨_, hindex, .item hsegment hsign hdigits hindex.symm⟩
  · rintro ⟨index, rfl, hspelt⟩
    cases hspelt with
    | item hsegment hsign hdigits hread =>
      exact ⟨_, _, hsegment, hsign, hdigits, hread, index.toNat_lt⟩

/-- A segment leads where a step leads that it spells. -/
theorem step?_eq_some_iff (hpoint : '.' ∉ segment.toList) :
    step? v segment = some w ↔ ∃ step, Step.IsSpelt segment step ∧ v.Opens step w := by
  constructor
  · intro h
    unfold step? at h
    split at h
    next members => exact ⟨.member segment, .member hpoint, .member h⟩
    next items =>
      obtain ⟨i, hi, hw⟩ := Option.bind_eq_some_iff.mp h
      obtain ⟨index, rfl, hspelt⟩ := index?_eq_some_iff.mp hi
      exact ⟨.item index, hspelt, .item hw⟩
    next => cases h
  · rintro ⟨step, hspelt, hopens⟩
    cases hopens with
    | member h =>
      cases hspelt
      exact h
    | item h => exact Option.bind_eq_some_iff.mpr ⟨_, index?_eq_some_iff.mpr ⟨_, rfl, hspelt⟩, h⟩

/-- Segments lead where steps lead that they spell. -/
theorem follow?_eq_some_iff (hpoints : ∀ piece ∈ pieces, '.' ∉ piece.toList) :
    follow? pieces v = some w ↔
      ∃ steps, List.Forall₂ Step.IsSpelt pieces steps ∧ v.LeadsTo steps w := by
  induction pieces generalizing v with
  | nil =>
    constructor
    · rintro ⟨⟩
      exact ⟨[], .nil, .here _⟩
    · rintro ⟨steps, hspelt, hleads⟩
      obtain rfl := List.forall₂_nil_left_iff.mp hspelt
      cases hleads
      rfl
  | cons piece rest ih =>
    obtain ⟨hpoint, hrest⟩ := List.forall_mem_cons.mp hpoints
    rw [follow?, Option.bind_eq_some_iff]
    constructor
    · rintro ⟨u, hfirst, hfollow⟩
      obtain ⟨step, hstep, hopens⟩ := (step?_eq_some_iff hpoint).mp hfirst
      obtain ⟨steps, hspelt, hleads⟩ := (ih hrest).mp hfollow
      exact ⟨step :: steps, .cons hstep hspelt, .onward hopens hleads⟩
    · rintro ⟨steps, hspelt, hleads⟩
      cases hspelt with
      | cons hstep hspelt =>
        cases hleads with
        | onward hopens hleads =>
          exact ⟨_, (step?_eq_some_iff hpoint).mpr ⟨_, hstep, hopens⟩,
            (ih hrest).mpr ⟨_, hspelt, hleads⟩⟩

theorem follow?_append (front back : List String) (v : Json) :
    follow? (front ++ back) v = (follow? front v).bind (follow? back) := by
  induction front generalizing v with
  | nil => rfl
  | cons piece rest ih =>
    rw [List.cons_append, follow?, follow?, Option.bind_assoc]
    exact congrArg _ (funext ih)

/-- What a whole path leads to from a value. -/
theorem follow?_segments_eq_some_iff :
    follow? (segments path) v = some w ↔ ∃ steps, Spells path steps ∧ v.LeadsTo steps w := by
  simp only [spells_iff]
  exact follow?_eq_some_iff fun piece hpiece => not_mem_of_mem_segments hpiece

/-- A path leads nowhere from what has nothing in it. -/
theorem follow?_segments_eq_none (hv : ∀ step w, ¬ v.Opens step w) :
    follow? (segments path) v = none := by
  rw [Option.eq_none_iff_forall_ne_some]
  intro w hw
  obtain ⟨steps, hspells, hleads⟩ := follow?_segments_eq_some_iff.mp hw
  cases hleads with
  | here => exact hspells.nonempty rfl
  | onward hopens => exact hv _ _ hopens

end Path

/-! ## Paths into the variables -/

namespace Variables

/-- Variables are entered as an object is. -/
theorem resolve?_eq_follow? (vars : Variables) (path : String) :
    vars.resolve? path = Path.follow? (Path.segments path) (.object vars) := by
  unfold resolve?
  split
  next hnil => exact absurd hnil (Path.segments_ne_nil path)
  next name rest hsegments => rw [hsegments]; rfl

theorem resolve?_eq_some_iff {vars : Variables} {path : String} {v : Json} :
    vars.resolve? path = some v ↔
      ∃ steps, Path.Spells path steps ∧ (Json.object vars).LeadsTo steps v := by
  rw [resolve?_eq_follow?, Path.follow?_segments_eq_some_iff]

theorem resolve?_append (vars : Variables) (p q : String) :
    vars.resolve? (p ++ "." ++ q) =
      (vars.resolve? p).bind (Path.follow? (Path.segments q)) := by
  rw [resolve?_eq_follow?, Path.segments_append, Path.follow?_append, resolve?_eq_follow?]

/-- **A path leads where its segments say.** It finds a value exactly if it spells steps that lead to
it, and so the path written of the steps to a value, whose names are free of points, finds that value.
Behind a path that finds an object or an array another path goes on in there; behind one that finds
anything else, or nothing, it leads nowhere. -/
theorem resolve?_exact (vars : Variables) :
    (∀ path v, vars.resolve? path = some v ↔
      ∃ steps, Path.Spells path steps ∧ (Json.object vars).LeadsTo steps v) ∧
    (∀ steps v, steps ≠ [] → (∀ step ∈ steps, step.IsPlain) →
      (Json.object vars).LeadsTo steps v → vars.resolve? (Path.written steps) = some v) ∧
    ∀ p q, match vars.resolve? p with
      | some (.object members) => vars.resolve? (p ++ "." ++ q) = resolve? members q
      | some (.array items) => ∀ v, vars.resolve? (p ++ "." ++ q) = some v ↔
        ∃ steps, Path.Spells q steps ∧ (Json.array items).LeadsTo steps v
      | _ => vars.resolve? (p ++ "." ++ q) = none := by
  refine ⟨fun path v => resolve?_eq_some_iff, fun steps v hne hplain hleads => ?_, fun p q => ?_⟩
  · exact resolve?_eq_some_iff.mpr ⟨steps, Path.spells_written hne hplain, hleads⟩
  · have happend := resolve?_append vars p q
    split
    next members hp =>
      rw [happend, hp, Option.bind_some, resolve?_eq_follow?]
    next items hp =>
      intro v
      rw [happend, hp, Option.bind_some, Path.follow?_segments_eq_some_iff]
    next hobject harray =>
      rw [happend]
      cases hp : vars.resolve? p with
      | none => rfl
      | some w =>
        refine Path.follow?_segments_eq_none fun step u hopens => ?_
        cases hopens with
        | member => exact hobject _ hp
        | item => exact harray _ hp

/-- An item of an item is found, and in it the member whose name is empty. -/
theorem item_of_item_found :
    let tags : Json := .array [.string "vip", .array [.object [("", .bool true)]]]
    let vars : Variables := [("contact", .object [("tags", tags)])]
    let steps : List Path.Step := [.member "contact", .member "tags", .item 1, .item 0, .member ""]
    (∀ step ∈ steps, step.IsPlain) ∧ (Json.object vars).LeadsTo steps (.bool true) ∧
      Path.written steps = "contact.tags.1.0." ∧
      vars.resolve? (Path.written steps) = some (.bool true) := by
  intro tags vars steps
  have hplain : ∀ step ∈ steps, step.IsPlain := by
    simp [steps, Path.Step.IsPlain]
  have hleads : (Json.object vars).LeadsTo steps (.bool true) :=
    .onward (.member rfl) <| .onward (.member rfl) <| .onward (.item rfl) <| .onward (.item rfl) <|
      .onward (.member rfl) (.here _)
  have hwritten : Path.written steps = "contact.tags.1.0." := by
    simp [steps, Path.written, Path.Step.text, Numeral.text, Numeral.render, Numeral.digit]
  exact ⟨hplain, hleads, hwritten,
    (resolve?_exact vars).2.1 steps _ (List.cons_ne_nil _ _) hplain hleads⟩

end Variables

end Outreach
