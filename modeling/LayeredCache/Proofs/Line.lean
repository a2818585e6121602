import LayeredCache.Directory
import Mathlib.Data.List.DropRight

/-! Lines of entries, the oldest first, that keep their newest entries. What a line of limited room keeps is
`rtake`, what it gives up is `rdrop`; the laws below say how one limit after another adds up. -/

set_option autoImplicit false

namespace LayeredCache.Line

variable {Entry : Type}

theorem rdrop_append_rtake (line : List Entry) (room : Nat) :
    line.rdrop room ++ line.rtake room = line :=
  List.take_append_drop _ _

theorem length_rtake (line : List Entry) (room : Nat) :
    (line.rtake room).length = min room line.length := by
  rw [List.rtake, List.length_drop]
  omega

theorem length_rtake_le (line : List Entry) (room : Nat) : (line.rtake room).length ≤ room := by
  rw [length_rtake]
  exact Nat.min_le_left _ _

theorem rtake_of_fits {line : List Entry} {room : Nat} (fits : line.length ≤ room) :
    line.rtake room = line := by
  rw [List.rtake, Nat.sub_eq_zero_of_le fits, List.drop_zero]

theorem rdrop_of_fits {line : List Entry} {room : Nat} (fits : line.length ≤ room) :
    line.rdrop room = [] := by
  rw [List.rdrop, Nat.sub_eq_zero_of_le fits, List.take_zero]

theorem rtake_sublist (line : List Entry) (room : Nat) : (line.rtake room).Sublist line :=
  List.drop_sublist _ _

theorem rdrop_sublist (line : List Entry) (room : Nat) : (line.rdrop room).Sublist line :=
  List.take_sublist _ _

theorem map_rtake {Other : Type} (change : Entry → Other) (line : List Entry) (room : Nat) :
    (line.rtake room).map change = (line.map change).rtake room := by
  rw [List.rtake, List.rtake, List.length_map, List.map_drop]

theorem map_rdrop {Other : Type} (change : Entry → Other) (line : List Entry) (room : Nat) :
    (line.rdrop room).map change = (line.map change).rdrop room := by
  rw [List.rdrop, List.rdrop, List.length_map, List.map_take]

/-- One entry more than there is room for costs exactly the first. -/
theorem rtake_concat_of_full {line : List Entry} {room : Nat} (full : line.length = room + 1) :
    line.rtake room = line.tail := by
  rw [List.rtake, full, Nat.add_sub_cancel_left, List.drop_one]

/-- Trimming before more entries arrive makes no difference to what is kept in the end. -/
theorem rtake_rtake_append (line more : List Entry) (room : Nat) :
    (line.rtake room ++ more).rtake room = (line ++ more).rtake room := by
  simp only [List.rtake, List.length_append, List.length_drop, List.drop_append, List.drop_drop]
  congr 2
  · omega
  · omega

theorem rdrop_append (line more : List Entry) (room : Nat) :
    (line ++ more).rdrop room = line.rdrop room ++ (line.rtake room ++ more).rdrop room := by
  have whole := rdrop_append_rtake (line ++ more) room
  have parts := rdrop_append_rtake (line.rtake room ++ more) room
  rw [rtake_rtake_append] at parts
  have same : (line ++ more).rdrop room ++ (line ++ more).rtake room =
      (line.rdrop room ++ (line.rtake room ++ more).rdrop room) ++ (line ++ more).rtake room := by
    rw [whole, List.append_assoc, parts, ← List.append_assoc, rdrop_append_rtake]
  exact List.append_cancel_right same

theorem rtake_append_of_le (line : List Entry) {more : List Entry} {room : Nat}
    (fits : more.length ≤ room) :
    (line ++ more).rtake room = line.rtake (room - more.length) ++ more := by
  have cut : (line ++ more).length - room = line.length - (room - more.length) := by
    rw [List.length_append]
    omega
  rw [List.rtake, cut, List.drop_append_of_le_length (Nat.sub_le _ _)]
  rfl

/-- Two lines, of which the second gives its surplus to the first, keep together what one line of the summed
room keeps. -/
theorem rtake_cascade {older : List Entry} {room : Nat} (fits : older.length ≤ room)
    (newer : List Entry) (limit : Nat) :
    (older ++ newer.rdrop limit).rtake room ++ newer.rtake limit =
      (older ++ newer).rtake (limit + room) := by
  by_cases short : newer.length ≤ limit
  · rw [rdrop_of_fits short, rtake_of_fits short, List.append_nil, rtake_of_fits fits, rtake_of_fits]
    rw [List.length_append]
    omega
  · have kept : (newer.rtake limit).length = limit := by
      rw [length_rtake]
      omega
    have split : older ++ newer = (older ++ newer.rdrop limit) ++ newer.rtake limit := by
      rw [List.append_assoc, rdrop_append_rtake]
    have within : (newer.rtake limit).length ≤ limit + room := by omega
    rw [split, rtake_append_of_le (older ++ newer.rdrop limit) within, kept, Nat.add_sub_cancel_left]

theorem rdrop_cascade {older : List Entry} {room : Nat} (fits : older.length ≤ room)
    (newer : List Entry) (limit : Nat) :
    (older ++ newer.rdrop limit).rdrop room = (older ++ newer).rdrop (limit + room) := by
  have whole := rdrop_append_rtake (older ++ newer) (limit + room)
  have parts := rdrop_append_rtake (older ++ newer.rdrop limit) room
  have same : (older ++ newer.rdrop limit).rdrop room ++ (older ++ newer).rtake (limit + room) =
      (older ++ newer).rdrop (limit + room) ++ (older ++ newer).rtake (limit + room) := by
    rw [whole, ← rtake_cascade fits, ← List.append_assoc, parts, List.append_assoc,
      rdrop_append_rtake]
  exact List.append_cancel_right same

theorem rtake_cons (first : Entry) (line : List Entry) (room : Nat) :
    (first :: line).rtake room = if line.length < room then first :: line else line.rtake room := by
  split
  next short =>
    rw [rtake_of_fits]
    rw [List.length_cons]
    omega
  next long =>
    have cut : (first :: line).length - room = (line.length - room) + 1 := by
      rw [List.length_cons]
      omega
    rw [List.rtake, cut, List.drop_succ_cons]
    rfl

/-! ### Lines that end in the entries of a kind -/

variable {kind : Entry → Bool} {line : List Entry}

theorem dropWhile_eq_filter
    (suffix : line.Pairwise fun earlier later => kind earlier = true → kind later = true) :
    line.dropWhile (fun entry => !kind entry) = line.filter kind := by
  induction line with
  | nil => rfl
  | cons first rest ih =>
      obtain ⟨follow, later⟩ := List.pairwise_cons.mp suffix
      cases kept : kind first with
      | false =>
          rw [List.dropWhile_cons_of_pos (by rw [kept]; rfl), List.filter_cons_of_neg (by simp [kept])]
          exact ih later
      | true =>
          have all : rest.filter kind = rest :=
            List.filter_eq_self.mpr fun entry member => follow entry member kept
          rw [List.dropWhile_cons_of_neg (by simp [kept]), List.filter_cons_of_pos kept, all]

theorem takeWhile_eq_filter
    (suffix : line.Pairwise fun earlier later => kind earlier = true → kind later = true) :
    line.takeWhile (fun entry => !kind entry) = line.filter fun entry => !kind entry := by
  induction line with
  | nil => rfl
  | cons first rest ih =>
      obtain ⟨follow, later⟩ := List.pairwise_cons.mp suffix
      cases kept : kind first with
      | false =>
          rw [List.takeWhile_cons_of_pos (by rw [kept]; rfl), List.filter_cons_of_pos (by rw [kept]; rfl), ih later]
      | true =>
          have none : rest.filter (fun entry => !kind entry) = [] :=
            List.filter_eq_nil_iff.mpr fun entry member => by simp [follow entry member kept]
          rw [List.takeWhile_cons_of_neg (by simp [kept]), List.filter_cons_of_neg (by simp [kept]), none]

/-- The newest entries that are kept hold the newest of the kind. -/
theorem filter_rtake
    (suffix : line.Pairwise fun earlier later => kind earlier = true → kind later = true) (room : Nat) :
    (line.rtake room).filter kind = (line.filter kind).rtake room := by
  induction line with
  | nil => simp [List.rtake]
  | cons first rest ih =>
      obtain ⟨follow, later⟩ := List.pairwise_cons.mp suffix
      by_cases short : rest.length < room
      · have within : ((first :: rest).filter kind).length ≤ room :=
          (List.length_filter_le kind _).trans (by rw [List.length_cons]; omega)
        rw [rtake_cons, if_pos short, rtake_of_fits within]
      · rw [rtake_cons, if_neg short, ih later]
        cases kept : kind first with
        | false => rw [List.filter_cons_of_neg (by simp [kept])]
        | true =>
            have all : rest.filter kind = rest :=
              List.filter_eq_self.mpr fun entry member => follow entry member kept
            rw [List.filter_cons_of_pos kept, all, rtake_cons, if_neg short]

end LayeredCache.Line
