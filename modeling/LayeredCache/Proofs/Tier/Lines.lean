import LayeredCache.Proofs.Bindings
import LayeredCache.Proofs.Line
import LayeredCache.Tier.Primary
import LayeredCache.Tier.Soft

/-! Bounded tiers as lines. An insertion or an acceptance appends its entry and keeps the newest entries that fit,
also where there is no room at all; what it gives up is what the line gives up. -/

set_option autoImplicit false

namespace LayeredCache

variable {Key Value : Type} [DecidableEq Key]

/-- An entry of the soft tier without its stamp. -/
def Stamped.unstamped (entry : Key × Stamped Value) : Key × Value := (entry.1, entry.2.value)

omit [DecidableEq Key] in
theorem keys_unstamped (entries : List (Key × Stamped Value)) :
    (entries.map Stamped.unstamped).map Prod.fst = entries.map Prod.fst := by
  rw [List.map_map]
  rfl

theorem Stamped.find?_unstamped (key : Key) (entries : List (Key × Stamped Value)) :
    Bindings.find? key (entries.map Stamped.unstamped) = (Bindings.find? key entries).map Stamped.value := by
  induction entries with
  | nil => rfl
  | cons entry rest ih =>
      simp only [List.map_cons, Stamped.unstamped, Bindings.find?]
      split
      · rfl
      · exact ih

theorem Stamped.erase_unstamped (key : Key) (entries : List (Key × Stamped Value)) :
    Bindings.erase key (entries.map Stamped.unstamped) =
      (Bindings.erase key entries).map Stamped.unstamped :=
  List.filter_map ..

namespace PrimaryTier

theorem keysDistinct (tier : PrimaryTier Key Value) : (tier.toList.map Prod.fst).Nodup :=
  tier.entries.keysDistinct

/-- A line that a new key lengthens repeats no key. -/
theorem keysDistinct_concat {tier : PrimaryTier Key Value} {key : Key}
    (absent : Bindings.find? key tier.toList = none) {value : Value} :
    ((tier.toList ++ [(key, value)]).map Prod.fst).Nodup := by
  rw [List.map_append, List.map_singleton, List.nodup_append]
  refine ⟨tier.keysDistinct, by simp, ?_⟩
  intro other stored new single same
  have new : other = key := same.trans (List.mem_singleton.mp single)
  exact Bindings.find?_eq_none_iff.mp absent (new ▸ stored)

@[simp] theorem capacity_insert (tier : PrimaryTier Key Value) (key : Key) (value : Value) :
    (tier.insert key value).2.capacity = tier.capacity := by
  unfold insert
  split
  · simp
  · split
    · rfl
    · dsimp only
      split <;> rfl

@[simp] theorem order_insert (tier : PrimaryTier Key Value) (key : Key) (value : Value) :
    (tier.insert key value).2.order = tier.order := by
  unfold insert
  split
  · simp
  · split
    · rfl
    · dsimp only
      split <;> rfl

theorem insert_absent {tier : PrimaryTier Key Value} {key : Key}
    (fits : tier.toList.length ≤ tier.capacity) (absent : Bindings.find? key tier.toList = none)
    (value : Value) :
    (tier.insert key value).1 =
        ⟨none, ((tier.toList ++ [(key, value)]).rdrop tier.capacity).head?⟩ ∧
      (tier.insert key value).2.toList = (tier.toList ++ [(key, value)]).rtake tier.capacity := by
  by_cases disabled : tier.capacity = 0
  · have nothing : tier.toList = [] := by
      rw [disabled] at fits
      exact List.eq_nil_of_length_eq_zero (Nat.le_zero.mp fits)
    rw [insert_of_capacity_zero absent disabled value, disabled, nothing]
    simp
  · obtain ⟨outcome, line⟩ := insert_of_absent absent disabled value
    rw [outcome, line]
    by_cases full : tier.capacity < tier.toList.length + 1
    · have length : (tier.toList ++ [(key, value)]).length = tier.capacity + 1 := by
        rw [List.length_append, List.length_singleton]
        omega
      refine ⟨?_, ?_⟩
      · rw [if_pos full, List.rdrop, length, Nat.add_sub_cancel_left, List.head?_take]
        rfl
      · rw [if_pos full, Line.rtake_concat_of_full length]
    · have room : (tier.toList ++ [(key, value)]).length ≤ tier.capacity := by
        rw [List.length_append, List.length_singleton]
        omega
      rw [if_neg full, if_neg full, Line.rdrop_of_fits room, Line.rtake_of_fits room]
      exact ⟨rfl, rfl⟩

theorem insert_present {tier : PrimaryTier Key Value} {key : Key} {old : Value}
    (present : Bindings.find? key tier.toList = some old) (value : Value) :
    (tier.insert key value).1 = ⟨some old, none⟩ ∧
      (tier.insert key value).2.toList =
        if tier.order.isLru then Bindings.erase key tier.toList ++ [(key, value)]
        else Bindings.reassign key value tier.toList := by
  rw [← Bindings.moveToBack_reassign present]
  exact insert_of_present present value

/-- A new value for a present key concerns no other key. -/
theorem mem_insert_present {tier : PrimaryTier Key Value} {key : Key} {old : Value}
    (present : Bindings.find? key tier.toList = some old) (value : Value) {entry : Key × Value}
    (member : entry ∈ (tier.insert key value).2.toList) :
    entry = (key, value) ∨ (entry.1 ≠ key ∧ entry ∈ tier.toList) := by
  rw [(insert_present present value).2] at member
  split at member
  · rcases List.mem_append.mp member with kept | new
    · obtain ⟨included, differs⟩ := Bindings.mem_erase.mp kept
      exact .inr ⟨differs, included⟩
    · exact .inl (List.mem_singleton.mp new)
  · exact Bindings.mem_reassign member

theorem length_insert_present {tier : PrimaryTier Key Value} {key : Key} {old : Value}
    (present : Bindings.find? key tier.toList = some old) (value : Value) :
    (tier.insert key value).2.toList.length = tier.toList.length := by
  have moved : (Bindings.erase key tier.toList ++ [(key, value)]).length = tier.toList.length := by
    have usual := @Bindings.length_moveToBack Key Value _ key _ tier.keysDistinct
    rw [Bindings.moveToBack_of_present present] at usual
    simpa using usual
  rw [(insert_present present value).2]
  split
  · exact moved
  · exact Bindings.length_reassign key value tier.toList

/-- A new value for a present key leaves the rest of the line as it was. -/
theorem erase_insert_present {tier : PrimaryTier Key Value} {key : Key} {old : Value}
    (present : Bindings.find? key tier.toList = some old) (value : Value) :
    Bindings.erase key (tier.insert key value).2.toList = Bindings.erase key tier.toList := by
  rw [(insert_present present value).2]
  split
  · rw [Bindings.erase_append, Bindings.erase_erase]
    simp [Bindings.erase]
  · exact Bindings.erase_reassign key value tier.toList

theorem peek?_insert_present {tier : PrimaryTier Key Value} {key : Key} {old : Value}
    (present : tier.peek? key = some old) (value : Value) (other : Key) :
    (tier.insert key value).2.peek? other = if other = key then some value else tier.peek? other := by
  rw [peek?_eq] at present
  have reassigned := Bindings.find?_reassign key other value tier.toList
  rw [present] at reassigned
  rw [peek?_eq, peek?_eq, (insert_of_present present value).2]
  split
  · exact (Bindings.find?_moveToBack key other _).trans reassigned
  · exact reassigned

theorem erase_touch (tier : PrimaryTier Key Value) (key : Key) :
    Bindings.erase key (tier.touch key).toList = Bindings.erase key tier.toList := by
  rw [toList_touch]
  split
  · exact Bindings.erase_moveToBack key tier.toList
  · rfl

theorem peek?_touch (tier : PrimaryTier Key Value) (key other : Key) :
    (tier.touch key).peek? other = tier.peek? other := by
  rw [peek?_eq, peek?_eq, toList_touch]
  split
  · exact Bindings.find?_moveToBack key other tier.toList
  · rfl

theorem mem_touch {tier : PrimaryTier Key Value} {key : Key} {entry : Key × Value}
    (member : entry ∈ (tier.touch key).toList) : entry ∈ tier.toList := by
  rw [toList_touch] at member
  split at member
  · exact Bindings.mem_moveToBack member
  · exact member

theorem length_touch (tier : PrimaryTier Key Value) (key : Key) :
    (tier.touch key).toList.length = tier.toList.length := by
  rw [toList_touch]
  split
  · exact Bindings.length_moveToBack tier.keysDistinct
  · rfl

end PrimaryTier

namespace SoftTier

theorem keysDistinct (tier : SoftTier Key Value) : (tier.toList.map Prod.fst).Nodup :=
  tier.entries.keysDistinct

@[simp] theorem capacity_accept (tier : SoftTier Key Value) (moment : Moment) (key : Key)
    (value : Value) : (tier.accept moment key value).2.capacity = tier.capacity := by
  unfold accept
  split
  · rfl
  · dsimp only
    split <;> rfl

@[simp] theorem ttl_accept (tier : SoftTier Key Value) (moment : Moment) (key : Key)
    (value : Value) : (tier.accept moment key value).2.ttl = tier.ttl := by
  unfold accept
  split
  · rfl
  · dsimp only
    split <;> rfl

/-- The line of a tier that is offered an entry, before the tier is cut back to its capacity. -/
def offered (tier : SoftTier Key Value) (moment : Moment) (key : Key) (value : Value) :
    List (Key × Stamped Value) :=
  Bindings.erase key tier.toList ++ [(key, ⟨value, moment⟩)]

theorem accept_line {tier : SoftTier Key Value} (fits : tier.toList.length ≤ tier.capacity)
    (moment : Moment) (key : Key) (value : Value) :
    (tier.accept moment key value).1 =
        (((tier.offered moment key value).rdrop tier.capacity).head?.map Stamped.unstamped) ∧
      (tier.accept moment key value).2.toList =
        (tier.offered moment key value).rtake tier.capacity := by
  have shorter := Bindings.length_erase_le key tier.toList
  by_cases disabled : tier.capacity = 0
  · have nothing : tier.toList = [] := by
      rw [disabled] at fits
      exact List.eq_nil_of_length_eq_zero (Nat.le_zero.mp fits)
    rw [accept_of_capacity_zero disabled, disabled, offered, nothing]
    simp [Bindings.erase, Stamped.unstamped]
  · obtain ⟨outcome, line⟩ := accept_eq disabled moment key value
    rw [outcome, line]
    by_cases full : tier.capacity < (Bindings.erase key tier.toList).length + 1
    · have length : (tier.offered moment key value).length = tier.capacity + 1 := by
        rw [offered, List.length_append, List.length_singleton]
        omega
      refine ⟨?_, ?_⟩
      · rw [if_pos full, List.rdrop, length, Nat.add_sub_cancel_left, List.head?_take]
        rfl
      · rw [if_pos full, Line.rtake_concat_of_full length, offered]
    · have room : (tier.offered moment key value).length ≤ tier.capacity := by
        rw [offered, List.length_append, List.length_singleton]
        omega
      rw [if_neg full, if_neg full, Line.rdrop_of_fits room, Line.rtake_of_fits room]
      exact ⟨rfl, rfl⟩

theorem offered_of_absent {tier : SoftTier Key Value} {key : Key}
    (absent : key ∉ tier.toList.map Prod.fst) (moment : Moment) (value : Value) :
    tier.offered moment key value = tier.toList ++ [(key, ⟨value, moment⟩)] := by
  rw [offered, Bindings.erase_eq_self absent]

end SoftTier

end LayeredCache
