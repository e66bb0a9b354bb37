import Outreach.Json.Members

/-!
# Members in ascending order

Members that are made by inserting are in ascending order (`Members.IsAscending`). In this order
every name stands once, so that what a sieve leaves of a name depends on its value alone, inserting
and erasing change the number of members by one at most, and members put together from their own
entries are the same again. Of members that are put on top of others the last one of a name stands
(`Members.get?_merge`).
-/

namespace Outreach.Members

variable {α : Type} {members : Members α} {name : String} {value : α}

/-- Every name comes before those that follow it. -/
def IsAscending (members : Members α) : Prop :=
  members.Pairwise fun a b => a.1 < b.1

theorem isAscending_nil : IsAscending ([] : Members α) := List.Pairwise.nil

theorem IsAscending.filter (h : IsAscending members) (p : String × α → Bool) :
    IsAscending (members.filter p) := List.Pairwise.filter p h

theorem IsAscending.erase (h : IsAscending members) (name : String) :
    IsAscending (members.erase name) := h.filter _

theorem mem_insert {entry : String × α} (h : entry ∈ insert name value members) :
    entry = (name, value) ∨ entry ∈ members := by
  induction members with
  | nil => exact .inl (List.mem_singleton.mp h)
  | cons first rest ih =>
    rw [insert] at h
    split at h
    next =>
      rcases List.mem_cons.mp h with rfl | h
      · exact .inl rfl
      · exact .inr (List.mem_cons_of_mem _ h)
    next =>
      split at h
      next =>
        rcases List.mem_cons.mp h with rfl | h
        · exact .inl rfl
        · exact .inr h
      next =>
        rcases List.mem_cons.mp h with rfl | h
        · exact .inr List.mem_cons_self
        · exact (ih h).imp_right (List.mem_cons_of_mem _)

/-- Inserting keeps the order. -/
theorem IsAscending.insert (h : IsAscending members) (name : String) (value : α) :
    IsAscending (members.insert name value) := by
  induction members with
  | nil => exact List.pairwise_singleton _ _
  | cons first rest ih =>
    obtain ⟨key, old⟩ := first
    obtain ⟨hfirst, hrest⟩ := List.pairwise_cons.mp h
    rw [Members.insert]
    split
    next hsame =>
      subst hsame
      exact List.pairwise_cons.mpr ⟨hfirst, hrest⟩
    next hother =>
      split
      next hbefore =>
        refine List.pairwise_cons.mpr ⟨fun entry hentry => ?_, h⟩
        rcases List.mem_cons.mp hentry with rfl | hentry
        · exact hbefore
        · exact String.lt_trans hbefore (hfirst entry hentry)
      next hbehind =>
        refine List.pairwise_cons.mpr ⟨fun entry hentry => ?_, ih hrest⟩
        rcases mem_insert hentry with rfl | hentry
        · have hle : key ≤ name := String.not_lt.mp hbehind
          exact Std.lt_of_le_of_ne hle (Ne.symm hother)
        · exact hfirst entry hentry

theorem IsAscending.merge (h : IsAscending members) (added : Members α) :
    IsAscending (members.merge added) := by
  induction added generalizing members with
  | nil => exact h
  | cons entry rest ih => exact ih (h.insert entry.1 entry.2)

theorem isAscending_ofEntries (entries : List (String × α)) : IsAscending (ofEntries entries) :=
  isAscending_nil.merge entries

theorem IsAscending.mapValues {β : Type} (h : IsAscending members) (f : α → β) :
    IsAscending (members.mapValues f) := List.Pairwise.map _ (fun _ _ hlt => hlt) h

theorem get?_eq_none_iff : get? name members = none ↔ ∀ entry ∈ members, entry.1 ≠ name := by
  induction members with
  | nil => simp [get?]
  | cons entry rest ih => by_cases h : entry.1 = name <;> simp [get?, h, ih]

/-- What a sieve leaves of a name. -/
theorem IsAscending.get?_filter (h : IsAscending members) (name : String) (p : String × α → Bool) :
    get? name (members.filter p) = (get? name members).filter fun value => p (name, value) := by
  induction members with
  | nil => rfl
  | cons entry rest ih =>
    obtain ⟨key, first⟩ := entry
    obtain ⟨hfirst, hrest⟩ := List.pairwise_cons.mp h
    by_cases hkey : key = name
    · subst hkey
      have hgone : get? key (rest.filter p) = none := get?_filter_eq_none
        (get?_eq_none_iff.mpr fun entry hentry => (String.ne_of_lt (hfirst entry hentry)).symm) p
      rw [get?, if_pos rfl, Option.filter_some]
      by_cases hp : p (key, first) = true <;> simp [hp, get?, hgone]
    · by_cases hp : p (key, first) = true <;> simp [hp, get?, hkey, ih hrest]

/-- A name behind all others is put at the end. -/
theorem insert_of_forall_lt (h : ∀ entry ∈ members, entry.1 < name) :
    members.insert name value = members ++ [(name, value)] := by
  induction members with
  | nil => rfl
  | cons entry rest ih =>
    obtain ⟨key, old⟩ := entry
    obtain ⟨hfirst, hrest⟩ := List.forall_mem_cons.mp h
    rw [insert, if_neg (String.ne_of_lt hfirst).symm, if_neg (String.lt_asymm hfirst), ih hrest]
    rfl

theorem merge_of_isAscending {added : Members α} (h : IsAscending (members ++ added)) :
    members.merge added = members ++ added := by
  induction added generalizing members with
  | nil => exact (List.append_nil _).symm
  | cons entry rest ih =>
    obtain ⟨-, -, hlt⟩ := List.pairwise_append.mp h
    have hinsert : members.insert entry.1 entry.2 = members ++ [entry] :=
      insert_of_forall_lt fun before hbefore => hlt before hbefore entry List.mem_cons_self
    rw [merge, List.foldl_cons, hinsert]
    exact (ih (by simpa using h)).trans (by simp)

/-- Members put together from their own entries are the same again. -/
theorem IsAscending.ofEntries_eq (h : IsAscending members) : ofEntries members = members :=
  merge_of_isAscending h

/-! ## Which value a name has -/

theorem get?_append (front back : Members α) (name : String) :
    get? name (front ++ back) = (get? name front).or (get? name back) := by
  induction front with
  | nil => rfl
  | cons entry rest ih =>
    obtain ⟨key, value⟩ := entry
    by_cases hkey : key = name <;> simp [get?, hkey, ih]

/-- Of members that are put on top of others the last one of a name stands. -/
theorem get?_merge (members added : Members α) (name : String) :
    get? name (members.merge added) = (get? name added.reverse).or (get? name members) := by
  induction added generalizing members with
  | nil => rfl
  | cons entry rest ih =>
    rw [merge, List.foldl_cons, ← merge, ih, get?_insert, List.reverse_cons, get?_append,
      Option.or_assoc]
    by_cases hkey : entry.1 = name <;> simp [get?, hkey]

theorem mem_of_get? (h : get? name members = some value) : (name, value) ∈ members := by
  induction members with
  | nil => cases h
  | cons entry rest ih =>
    obtain ⟨key, first⟩ := entry
    rw [get?] at h
    split at h
    next hkey =>
      cases h
      exact hkey ▸ List.mem_cons_self
    next => exact List.mem_cons_of_mem _ (ih h)

/-- Where every name stands once, a name has the value that stands beside it. -/
theorem get?_eq_some_iff_mem (h : (members.map Prod.fst).Nodup) :
    get? name members = some value ↔ (name, value) ∈ members := by
  refine ⟨mem_of_get?, fun hmem => ?_⟩
  induction members with
  | nil => cases hmem
  | cons entry rest ih =>
    obtain ⟨key, first⟩ := entry
    obtain ⟨hfresh, hrest⟩ := List.nodup_cons.mp h
    rcases List.mem_cons.mp hmem with heq | hmem
    · cases heq
      simp [get?]
    · have hkey : key ≠ name := by
        rintro rfl
        exact hfresh (List.mem_map.mpr ⟨_, hmem, rfl⟩)
      rw [get?, if_neg hkey]
      exact ih hrest hmem

theorem IsAscending.nodup (h : IsAscending members) : (members.map Prod.fst).Nodup :=
  List.pairwise_map.mpr (h.imp String.ne_of_lt)

/-- Where every name stands once, the order is of no account. -/
theorem get?_of_perm (h : (members.map Prod.fst).Nodup) {added : Members α}
    (hperm : added.Perm members) (name : String) : get? name added = get? name members := by
  have hadded : (added.map Prod.fst).Nodup := (hperm.map Prod.fst).nodup_iff.mpr h
  apply Option.ext
  intro value
  rw [get?_eq_some_iff_mem hadded, get?_eq_some_iff_mem h, hperm.mem_iff]

/-! ## How many there are -/

theorem has_eq_false_iff : has members name = false ↔ ∀ entry ∈ members, entry.1 ≠ name := by
  rw [has, Option.isSome_eq_false_iff, Option.isNone_iff_eq_none, get?_eq_none_iff]

/-- Inserting adds a member exactly if the name had no value. -/
theorem IsAscending.length_insert (h : IsAscending members) (name : String) (value : α) :
    (members.insert name value).length = members.length + if has members name then 0 else 1 := by
  induction members with
  | nil => rfl
  | cons first rest ih =>
    obtain ⟨key, old⟩ := first
    obtain ⟨hfirst, hrest⟩ := List.pairwise_cons.mp h
    rw [Members.insert]
    split
    next hsame =>
      subst hsame
      simp [has, get?]
    next hother =>
      split
      next hbefore =>
        have hnone : has ((key, old) :: rest) name = false := by
          refine has_eq_false_iff.mpr (List.forall_mem_cons.mpr ⟨Ne.symm hother, ?_⟩)
          intro entry hentry
          exact (String.ne_of_lt (String.lt_trans hbefore (hfirst entry hentry))).symm
        simp [hnone]
      next =>
        have hhas : has ((key, old) :: rest) name = has rest name := by
          simp [has, get?, Ne.symm hother]
        rw [List.length_cons, ih hrest, hhas, List.length_cons]
        omega

/-- Erasing takes a member away exactly if the name has a value. -/
theorem IsAscending.length_erase (h : IsAscending members) (name : String) :
    (members.erase name).length + (if has members name then 1 else 0) = members.length := by
  induction members with
  | nil => rfl
  | cons first rest ih =>
    obtain ⟨key, old⟩ := first
    obtain ⟨hfirst, hrest⟩ := List.pairwise_cons.mp h
    have hshorter := ih hrest
    by_cases hsame : key = name
    · subst hsame
      have hnone : has rest key = false :=
        has_eq_false_iff.mpr fun entry hentry => (String.ne_of_lt (hfirst entry hentry)).symm
      have herase : Members.erase key ((key, old) :: rest) = Members.erase key rest := by
        simp [Members.erase]
      have hhas : has ((key, old) :: rest) key = true := by simp [has, get?]
      rw [hnone] at hshorter
      simpa [herase, hhas] using hshorter
    · have herase : Members.erase name ((key, old) :: rest) =
          (key, old) :: Members.erase name rest := by
        simp [Members.erase, hsame]
      have hhas : has ((key, old) :: rest) name = has rest name := by simp [has, get?, hsame]
      rw [herase, hhas, List.length_cons, List.length_cons]
      omega

end Outreach.Members
