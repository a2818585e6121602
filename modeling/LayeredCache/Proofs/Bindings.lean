import LayeredCache.Directory
import Mathlib.Data.List.Basic

/-! Membership in changed bindings, and the binding that a use brings to the end. -/

set_option autoImplicit false

namespace LayeredCache.Bindings

variable {Key Value : Type} [DecidableEq Key]

theorem mem_erase {key : Key} {binding : Key × Value} {bindings : List (Key × Value)} :
    binding ∈ erase key bindings ↔ binding ∈ bindings ∧ binding.1 ≠ key := by
  simp [erase]

theorem mem_keys_erase {key other : Key} {bindings : List (Key × Value)} :
    other ∈ (erase key bindings).map Prod.fst ↔ other ∈ bindings.map Prod.fst ∧ other ≠ key := by
  simp only [List.mem_map, mem_erase]
  constructor
  · rintro ⟨binding, ⟨member, differs⟩, rfl⟩
    exact ⟨⟨binding, member, rfl⟩, differs⟩
  · rintro ⟨⟨binding, member, rfl⟩, differs⟩
    exact ⟨binding, ⟨member, differs⟩, rfl⟩

theorem erase_append (key : Key) (left right : List (Key × Value)) :
    erase key (left ++ right) = erase key left ++ erase key right :=
  List.filter_append ..

theorem erase_erase (key : Key) (bindings : List (Key × Value)) :
    erase key (erase key bindings) = erase key bindings :=
  erase_eq_self fun member => (mem_keys_erase.mp member).2 rfl

theorem length_erase_le (key : Key) (bindings : List (Key × Value)) :
    (erase key bindings).length ≤ bindings.length :=
  (erase_sublist key bindings).length_le

/-- Among distinct keys it makes no difference in which order the bindings come. -/
theorem find?_perm {bindings others : List (Key × Value)} (same : bindings.Perm others)
    (distinct : (bindings.map Prod.fst).Nodup) (key : Key) : find? key bindings = find? key others := by
  refine Option.ext fun value => ?_
  rw [find?_eq_some_iff distinct, find?_eq_some_iff ((same.map Prod.fst).nodup_iff.mp distinct)]
  exact same.mem_iff

theorem mem_reassign {key : Key} {value : Value} {binding : Key × Value}
    {bindings : List (Key × Value)} (member : binding ∈ reassign key value bindings) :
    binding = (key, value) ∨ (binding.1 ≠ key ∧ binding ∈ bindings) := by
  obtain ⟨original, included, rfl⟩ := List.mem_map.mp member
  by_cases same : original.1 = key
  · exact .inl (by simp [same])
  · refine .inr ⟨same, ?_⟩
    simpa [same] using included

theorem reassign_self {key : Key} {value : Value} {bindings : List (Key × Value)}
    (distinct : (bindings.map Prod.fst).Nodup) (found : find? key bindings = some value) :
    reassign key value bindings = bindings := by
  refine (List.map_congr_left fun binding listed => ?_).trans (List.map_id _)
  by_cases own : binding.1 = key
  · have stored := (find?_eq_some_iff distinct).mpr (own ▸ listed : (key, binding.2) ∈ bindings)
    rw [if_pos own, Option.some.inj (found.symm.trans stored)]
    rfl
  · rw [if_neg own]
    rfl

theorem erase_reassign (key : Key) (value : Value) (bindings : List (Key × Value)) :
    erase key (reassign key value bindings) = erase key bindings := by
  induction bindings with
  | nil => rfl
  | cons binding rest ih =>
      simp only [erase, reassign, List.map_cons, List.filter_cons] at ih ⊢
      by_cases same : binding.1 = key
      · simpa [same] using ih
      · simpa [same] using ih

/-- A use that brings a value replaces the binding and moves it to the end. -/
theorem moveToBack_reassign {key : Key} {old : Value} {bindings : List (Key × Value)}
    (present : find? key bindings = some old) (value : Value) :
    moveToBack key (reassign key value bindings) = erase key bindings ++ [(key, value)] := by
  have found : find? key (reassign key value bindings) = some value := by
    rw [find?_reassign, if_pos rfl, present]
    rfl
  rw [moveToBack, found, ← erase_reassign key value bindings]

theorem moveToBack_of_present {key : Key} {value : Value} {bindings : List (Key × Value)}
    (present : find? key bindings = some value) :
    moveToBack key bindings = erase key bindings ++ [(key, value)] := by
  rw [moveToBack, present]

/-- The first of distinct keys moves behind all the others. -/
theorem moveToBack_cons {key : Key} {value : Value} {rest : List (Key × Value)}
    (distinct : (((key, value) :: rest).map Prod.fst).Nodup) :
    moveToBack key ((key, value) :: rest) = rest ++ [(key, value)] := by
  have first : find? key ((key, value) :: rest) = some value := if_pos rfl
  rw [moveToBack_of_present first]
  exact congrArg (· ++ [(key, value)]) (@erase_append_cons Key Value _ key value [] rest distinct)

theorem moveToBack_of_absent {key : Key} {bindings : List (Key × Value)}
    (absent : find? key bindings = none) : moveToBack key bindings = bindings := by
  rw [moveToBack, absent]

theorem find?_moveToBack (key other : Key) (bindings : List (Key × Value)) :
    find? other (moveToBack key bindings) = find? other bindings := by
  cases found : find? key bindings with
  | none => rw [moveToBack_of_absent found]
  | some value =>
      rw [moveToBack_of_present found, find?_append, find?_erase]
      split
      next same => rw [same, found, find?, if_pos rfl]; rfl
      next apart => rw [find?, if_neg (Ne.symm apart), find?, Option.or_none]

theorem erase_moveToBack (key : Key) (bindings : List (Key × Value)) :
    erase key (moveToBack key bindings) = erase key bindings := by
  cases found : find? key bindings with
  | none => rw [moveToBack_of_absent found]
  | some value =>
      rw [moveToBack_of_present found, erase_append, erase_erase]
      simp [erase]

theorem mem_moveToBack {key : Key} {binding : Key × Value} {bindings : List (Key × Value)}
    (member : binding ∈ moveToBack key bindings) : binding ∈ bindings := by
  cases found : find? key bindings with
  | none =>
      rw [moveToBack_of_absent found] at member
      exact member
  | some value =>
      rw [moveToBack_of_present found, List.mem_append, List.mem_singleton] at member
      rcases member with kept | rfl
      · exact (mem_erase.mp kept).1
      · exact mem_of_find? found

theorem length_moveToBack {key : Key} {bindings : List (Key × Value)}
    (distinct : (bindings.map Prod.fst).Nodup) :
    (moveToBack key bindings).length = bindings.length := by
  cases found : find? key bindings with
  | none => rw [moveToBack_of_absent found]
  | some value =>
      have positive : 0 < bindings.length := List.length_pos_of_mem (mem_of_find? found)
      rw [moveToBack_of_present found, List.length_append, length_erase distinct, found]
      simp only [Option.isSome_some, ↓reduceIte, List.length_singleton]
      omega

@[simp] theorem length_reassign (key : Key) (value : Value) (bindings : List (Key × Value)) :
    (reassign key value bindings).length = bindings.length :=
  List.length_map _

theorem find?_isSome_iff {key : Key} {bindings : List (Key × Value)} :
    (find? key bindings).isSome = true ↔ key ∈ bindings.map Prod.fst := by
  rw [Option.isSome_iff_ne_none, ne_eq, find?_eq_none_iff, Classical.not_not]

/-- Among distinct keys, each has one binding. -/
theorem filter_of_mem {key : Key} {value : Value} {bindings : List (Key × Value)}
    (distinct : (bindings.map Prod.fst).Nodup) (member : (key, value) ∈ bindings) :
    bindings.filter (fun binding => binding.1 = key) = [(key, value)] := by
  induction bindings with
  | nil => cases member
  | cons binding rest ih =>
      obtain ⟨fresh, distinctRest⟩ := List.nodup_cons.mp distinct
      rcases List.mem_cons.mp member with rfl | later
      · have none : rest.filter (fun binding => binding.1 = key) = [] := by
          refine List.filter_eq_nil_iff.mpr fun binding listed same => fresh ?_
          exact List.mem_map.mpr ⟨binding, listed, of_decide_eq_true same⟩
        rw [List.filter_cons_of_pos (by simp), none]
      · have differs : binding.1 ≠ key := fun same => fresh (same ▸ List.mem_map_of_mem later)
        rw [List.filter_cons_of_neg (by simpa using differs)]
        exact ih distinctRest later

end LayeredCache.Bindings
