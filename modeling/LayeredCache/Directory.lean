/-!
# Finite maps with distinct keys

A directory is a list of bindings in which no key occurs twice, so its length is the number of keys it
binds. Lookup, insertion and erasure are described by what they do to `find?`; the order of the list is an
accident of the history and is never consulted. The functions on plain lists of bindings serve ordered
collections too, where the order does matter.
-/

set_option autoImplicit false

namespace LayeredCache

namespace Bindings

variable {Key Value : Type} [DecidableEq Key]

def find? (key : Key) : List (Key × Value) → Option Value
  | [] => none
  | (bound, value) :: rest => if bound = key then some value else find? key rest

def reassign (key : Key) (value : Value) (bindings : List (Key × Value)) : List (Key × Value) :=
  bindings.map fun binding => (binding.1, if binding.1 = key then value else binding.2)

def erase (key : Key) (bindings : List (Key × Value)) : List (Key × Value) :=
  bindings.filter fun binding => binding.1 ≠ key

def moveToBack (key : Key) (bindings : List (Key × Value)) : List (Key × Value) :=
  match find? key bindings with
  | none => bindings
  | some value => erase key bindings ++ [(key, value)]

theorem find?_eq_none_iff {key : Key} {bindings : List (Key × Value)} :
    find? key bindings = none ↔ key ∉ bindings.map Prod.fst := by
  induction bindings with
  | nil => simp [find?]
  | cons binding rest ih => grind [find?]

theorem find?_eq_some_iff {key : Key} {value : Value} {bindings : List (Key × Value)}
    (distinct : (bindings.map Prod.fst).Nodup) :
    find? key bindings = some value ↔ (key, value) ∈ bindings := by
  induction bindings with
  | nil => simp [find?]
  | cons binding rest ih => grind [find?]

/-- What a key finds is one of its bindings, whether or not keys repeat. -/
theorem mem_of_find? {key : Key} {value : Value} {bindings : List (Key × Value)}
    (found : find? key bindings = some value) : (key, value) ∈ bindings := by
  induction bindings with
  | nil => simp [find?] at found
  | cons binding rest ih => grind [find?]

theorem find?_append (key : Key) (left right : List (Key × Value)) :
    find? key (left ++ right) = (find? key left).or (find? key right) := by
  induction left with
  | nil => simp [find?]
  | cons binding rest ih => grind [find?]

@[simp] theorem keys_reassign (key : Key) (value : Value) (bindings : List (Key × Value)) :
    (reassign key value bindings).map Prod.fst = bindings.map Prod.fst := by
  simp [reassign, Function.comp_def]

theorem find?_reassign (key other : Key) (value : Value) (bindings : List (Key × Value)) :
    find? other (reassign key value bindings) =
      if other = key then (find? key bindings).map (fun _ => value) else find? other bindings := by
  induction bindings with
  | nil => simp [reassign, find?]
  | cons binding rest ih => grind [reassign, find?]

theorem find?_erase (key other : Key) (bindings : List (Key × Value)) :
    find? other (erase key bindings) = if other = key then none else find? other bindings := by
  induction bindings with
  | nil => simp [erase, find?]
  | cons binding rest ih => grind [erase, find?]

theorem erase_eq_self {key : Key} {bindings : List (Key × Value)}
    (absent : key ∉ bindings.map Prod.fst) : erase key bindings = bindings := by
  refine List.filter_eq_self.mpr fun binding member => ?_
  have differs : binding.1 ≠ key := fun same => absent (same ▸ List.mem_map_of_mem member)
  simpa using differs

/-- Among distinct keys, dropping one takes out its binding and joins what surrounds it. -/
theorem erase_append_cons {key : Key} {value : Value} {left right : List (Key × Value)}
    (distinct : ((left ++ (key, value) :: right).map Prod.fst).Nodup) :
    erase key (left ++ (key, value) :: right) = left ++ right := by
  rw [List.map_append, List.map_cons, List.nodup_append, List.nodup_cons] at distinct
  have inLeft : key ∉ left.map Prod.fst := fun member => distinct.2.2 key member key (by simp) rfl
  have dropped : erase key ((key, value) :: right) = erase key right := by simp [erase]
  have split : erase key (left ++ (key, value) :: right) =
      erase key left ++ erase key ((key, value) :: right) := List.filter_append ..
  rw [split, dropped, erase_eq_self inLeft, erase_eq_self distinct.2.1.1]

theorem erase_sublist (key : Key) (bindings : List (Key × Value)) :
    (erase key bindings).Sublist bindings :=
  List.filter_sublist

theorem length_erase {key : Key} {bindings : List (Key × Value)}
    (distinct : (bindings.map Prod.fst).Nodup) :
    (erase key bindings).length =
      if (find? key bindings).isSome then bindings.length - 1 else bindings.length := by
  induction bindings with
  | nil => simp [erase, find?]
  | cons binding rest ih =>
      obtain ⟨bound, value⟩ := binding
      have ih := ih (List.nodup_cons.mp distinct).2
      by_cases same : bound = key
      · have absent : find? key rest = none :=
          find?_eq_none_iff.mpr (same ▸ (List.nodup_cons.mp distinct).1)
        grind [erase, find?]
      · by_cases found : (find? key rest).isSome
        · have nonempty : rest ≠ [] := fun empty => by simp [empty, find?] at found
          grind [erase, find?]
        · grind [erase, find?]

end Bindings

/-- Bindings in which every key occurs at most once. -/
structure Directory (Key Value : Type) where
  entries : List (Key × Value)
  distinct : (entries.map Prod.fst).Nodup

namespace Directory

variable {Key Value : Type}

def empty : Directory Key Value := ⟨[], by simp⟩

def size (directory : Directory Key Value) : Nat := directory.entries.length

def keys (directory : Directory Key Value) : List Key := directory.entries.map Prod.fst

@[simp] theorem size_empty : (empty : Directory Key Value).size = 0 := rfl

variable [DecidableEq Key]

def find? (directory : Directory Key Value) (key : Key) : Option Value :=
  Bindings.find? key directory.entries

def contains (directory : Directory Key Value) (key : Key) : Bool :=
  (directory.find? key).isSome

def insert (directory : Directory Key Value) (key : Key) (value : Value) : Directory Key Value :=
  if present : directory.contains key then
    ⟨Bindings.reassign key value directory.entries, by simpa using directory.distinct⟩
  else
    ⟨directory.entries ++ [(key, value)], by
      have absent : key ∉ directory.entries.map Prod.fst :=
        Bindings.find?_eq_none_iff.mp (by simpa [contains, find?] using present)
      have distinct := directory.distinct
      rw [List.map_append, List.nodup_append]
      grind⟩

def erase (directory : Directory Key Value) (key : Key) : Directory Key Value :=
  ⟨Bindings.erase key directory.entries,
    ((Bindings.erase_sublist key directory.entries).map Prod.fst).nodup directory.distinct⟩

@[simp] theorem find?_empty (key : Key) : (empty : Directory Key Value).find? key = none := rfl

theorem find?_eq_some_iff {directory : Directory Key Value} {key : Key} {value : Value} :
    directory.find? key = some value ↔ (key, value) ∈ directory.entries :=
  Bindings.find?_eq_some_iff directory.distinct

theorem find?_eq_none_iff {directory : Directory Key Value} {key : Key} :
    directory.find? key = none ↔ key ∉ directory.keys :=
  Bindings.find?_eq_none_iff

theorem contains_iff_mem_keys {directory : Directory Key Value} {key : Key} :
    directory.contains key = true ↔ key ∈ directory.keys := by
  rw [contains, Option.isSome_iff_ne_none, ne_eq, find?_eq_none_iff, Classical.not_not]

theorem find?_insert (directory : Directory Key Value) (key other : Key) (value : Value) :
    (directory.insert key value).find? other =
      if other = key then some value else directory.find? other := by
  unfold insert
  split
  next present =>
      obtain ⟨stored, found⟩ := Option.isSome_iff_exists.mp present
      simp only [find?] at found ⊢
      rw [Bindings.find?_reassign, found]
      simp
  next absent =>
      have missing : Bindings.find? key directory.entries = none := by
        simpa [contains, find?] using absent
      simp only [find?, Bindings.find?_append]
      by_cases same : other = key
      · simp [same, missing, Bindings.find?]
      · simp [same, Ne.symm same, Bindings.find?]

theorem find?_erase (directory : Directory Key Value) (key other : Key) :
    (directory.erase key).find? other = if other = key then none else directory.find? other :=
  Bindings.find?_erase key other directory.entries

/-- A new key that is dropped again leaves no trace. -/
theorem erase_insert_of_absent {directory : Directory Key Value} {key : Key}
    (absent : directory.find? key = none) (value : Value) : (directory.insert key value).erase key = directory := by
  obtain ⟨entries, distinct⟩ := directory
  have unknown : ¬Directory.contains ⟨entries, distinct⟩ key = true := by simp [contains, absent]
  have longer := (insert ⟨entries, distinct⟩ key value).distinct
  simp only [insert, dif_neg unknown] at longer ⊢
  simp only [erase]
  have kept := Bindings.erase_append_cons longer
  simp only [kept, List.append_nil]

theorem size_insert (directory : Directory Key Value) (key : Key) (value : Value) :
    (directory.insert key value).size =
      if directory.contains key then directory.size else directory.size + 1 := by
  unfold insert
  split <;> simp_all [size, Bindings.reassign]

theorem size_erase (directory : Directory Key Value) (key : Key) :
    (directory.erase key).size =
      if directory.contains key then directory.size - 1 else directory.size :=
  Bindings.length_erase directory.distinct

end Directory

end LayeredCache
