/-!
# Members of an object

Names with values, in ascending order of the names, each name once. The order is that of the code
points, which is also the byte order of the written form.
-/

namespace Outreach

/-- Named values, ascending by name. -/
abbrev Members (α : Type) := List (String × α)

namespace Members

variable {α : Type}

/-- The value of a name. -/
def get? (name : String) : Members α → Option α
  | [] => none
  | (key, value) :: rest => if key = name then some value else get? name rest

/-- Whether a name has a value. -/
def has (members : Members α) (name : String) : Bool :=
  (get? name members).isSome

/-- Gives a name a value, in place of the one it had. -/
def insert (name : String) (value : α) : Members α → Members α
  | [] => [(name, value)]
  | (key, old) :: rest =>
    if name = key then (name, value) :: rest
    else if name < key then (name, value) :: (key, old) :: rest
    else (key, old) :: insert name value rest

/-- All of `added` on top of `members`: the later value of a name stands. -/
def merge (members added : Members α) : Members α :=
  added.foldl (fun acc entry => insert entry.1 entry.2 acc) members

/-- Members from entries in any order; the last value of a name stands. -/
def ofEntries (entries : List (String × α)) : Members α :=
  merge [] entries

/-- Every value replaced by its image. -/
def mapValues {β : Type} (f : α → β) (members : Members α) : Members β :=
  members.map fun entry => (entry.1, f entry.2)

/-- Everything but one name. -/
def erase (name : String) (members : Members α) : Members α :=
  members.filter fun entry => entry.1 ≠ name

theorem get?_insert (name other : String) (value : α) (members : Members α) :
    get? other (insert name value members) =
      if name = other then some value else get? other members := by
  induction members with
  | nil => simp [insert, get?]
  | cons entry rest ih =>
    obtain ⟨key, old⟩ := entry
    simp only [insert]
    split
    · next h => subst h; by_cases hk : name = other <;> simp [get?, hk]
    · next h =>
      split
      · by_cases hn : name = other <;> simp [get?, hn]
      · by_cases hk : key = other
        · have hn : name ≠ other := fun hno => h (hno.trans hk.symm)
          simp [get?, hk, hn]
        · simp [get?, hk, ih]

theorem get?_erase (name other : String) (members : Members α) :
    get? other (erase name members) = if name = other then none else get? other members := by
  induction members with
  | nil => simp [erase, get?]
  | cons entry rest ih =>
    obtain ⟨key, value⟩ := entry
    have hcons : erase name ((key, value) :: rest) =
        if key = name then erase name rest else (key, value) :: erase name rest := by
      by_cases hk : key = name <;> simp [erase, hk]
    rw [hcons]
    split
    · next hk =>
      rw [ih, hk]
      by_cases hn : name = other <;> simp [get?, hn]
    · next hk =>
      by_cases hother : key = other
      · have hn : name ≠ other := fun hno => hk (hother.trans hno.symm)
        simp [get?, hother, hn]
      · simp [get?, hother, ih]

/-- The value of a name that passes a sieve stays. -/
theorem get?_filter {name : String} {value : α} {p : String × α → Bool} {members : Members α}
    (h : get? name members = some value) (hp : p (name, value) = true) :
    get? name (members.filter p) = some value := by
  induction members with
  | nil => simp [get?] at h
  | cons entry rest ih =>
    obtain ⟨key, first⟩ := entry
    by_cases hk : key = name
    · subst hk
      have hvalue : first = value := by simpa [get?] using h
      simp [hvalue, hp, get?]
    · have hrest : get? name (rest.filter p) = some value := ih (by simpa [get?, hk] using h)
      by_cases hfirst : p (key, first) = true <;> simp [hfirst, get?, hk, hrest]

/-- No name gets a value from a sieve. -/
theorem get?_filter_eq_none {name : String} {members : Members α} (h : get? name members = none)
    (p : String × α → Bool) : get? name (members.filter p) = none := by
  induction members with
  | nil => rfl
  | cons entry rest ih =>
    obtain ⟨key, first⟩ := entry
    by_cases hk : key = name
    · simp [get?, hk] at h
    · have hrest : get? name (rest.filter p) = none := ih (by simpa [get?, hk] using h)
      by_cases hfirst : p (key, first) = true <;> simp [hfirst, get?, hk, hrest]

end Members

end Outreach
