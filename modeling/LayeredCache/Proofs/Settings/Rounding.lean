import LayeredCache.Time
import Mathlib.Order.Bounds.Defs

/-! Spans as settings store them, in whole milliseconds. A span is rounded up to the least count that is not below it, as
long as one fits; a longer span is stored as the greatest count there is. -/

set_option autoImplicit false

namespace LayeredCache.Span

/-- The milliseconds that a setting stores for a span. -/
def stored (span : Span) : UInt64 := span.toMilliseconds.toUInt64

/-- A span that some count of milliseconds is not below. -/
def Fits (span : Span) : Prop := span.nanoseconds ≤ (ofMilliseconds maxMilliseconds).nanoseconds

/-- A count of milliseconds that stands for a span: less than a millisecond above it if one fits, the greatest of all
otherwise, and zero for no time at all only. -/
structure RoundedUp (span : Span) (count : UInt64) : Prop where
  near : span.Fits → span.nanoseconds ≤ (ofMilliseconds count.toNat).nanoseconds ∧
    (ofMilliseconds count.toNat).nanoseconds - span.nanoseconds < millisecond
  greatest : ¬span.Fits → count.toNat = maxMilliseconds
  zero : count = 0 ↔ span = ⟨0⟩

variable {span shorter longer : Span}

theorem toMilliseconds_le_max (span : Span) : span.toMilliseconds ≤ maxMilliseconds := Nat.min_le_right _ _

theorem toNat_stored (span : Span) : span.stored.toNat = span.toMilliseconds :=
  UInt64.toNat_ofNat_of_lt' (Nat.lt_of_le_of_lt span.toMilliseconds_le_max (by decide))

theorem toMilliseconds_eq (span : Span) :
    span.toMilliseconds = min ((span.nanoseconds + 999999) / 1000000) 18446744073709551615 := rfl

theorem nanoseconds_ofMilliseconds (count : Nat) : (ofMilliseconds count).nanoseconds = count * 1000000 := rfl

theorem fits_iff : span.Fits ↔ span.nanoseconds ≤ 18446744073709551615 * 1000000 := Iff.rfl

/-- Rounding up goes to the least count not below. -/
theorem toMilliseconds_le_iff (fits : span.Fits) (count : Nat) :
    span.toMilliseconds ≤ count ↔ span.nanoseconds ≤ (ofMilliseconds count).nanoseconds := by
  rw [fits_iff] at fits
  rw [toMilliseconds_eq, nanoseconds_ofMilliseconds]
  omega

theorem toMilliseconds_of_not_fits (long : ¬span.Fits) : span.toMilliseconds = maxMilliseconds := by
  rw [fits_iff] at long
  have greatest : maxMilliseconds = 18446744073709551615 := rfl
  rw [toMilliseconds_eq, greatest]
  omega

theorem toMilliseconds_lt (span : Span) : (ofMilliseconds span.toMilliseconds).nanoseconds <
    span.nanoseconds + millisecond := by
  rw [nanoseconds_ofMilliseconds, toMilliseconds_eq, millisecond]
  omega

theorem toMilliseconds_eq_zero : span.toMilliseconds = 0 ↔ span = ⟨0⟩ := by
  rw [Span.mk.injEq, toMilliseconds_eq]
  omega

theorem toMilliseconds_mono (below : shorter.nanoseconds ≤ longer.nanoseconds) :
    shorter.toMilliseconds ≤ longer.toMilliseconds := by
  rw [toMilliseconds_eq, toMilliseconds_eq]
  omega

theorem stored_roundedUp (span : Span) : span.RoundedUp span.stored where
  near fits := by
    rw [toNat_stored]
    have enough := (toMilliseconds_le_iff fits _).mp (Nat.le_refl span.toMilliseconds)
    have close := span.toMilliseconds_lt
    exact ⟨enough, by omega⟩
  greatest long := (toNat_stored span).trans (toMilliseconds_of_not_fits long)
  zero := by
    rw [← toMilliseconds_eq_zero, ← toNat_stored, ← UInt64.toNat_inj]
    rfl

theorem stored_mono (below : shorter.nanoseconds ≤ longer.nanoseconds) : shorter.stored ≤ longer.stored := by
  rw [UInt64.le_iff_toNat_le, toNat_stored, toNat_stored]
  exact toMilliseconds_mono below

theorem stored_ofMilliseconds (count : UInt64) : (ofMilliseconds count.toNat).stored = count := by
  have bound := count.toNat_lt
  rw [← UInt64.toNat_inj, toNat_stored, toMilliseconds_eq, nanoseconds_ofMilliseconds]
  omega

theorem stored_isLeast (fits : span.Fits) :
    IsLeast {count : Nat | span.nanoseconds ≤ (ofMilliseconds count).nanoseconds} span.stored.toNat := by
  rw [toNat_stored]
  refine ⟨(toMilliseconds_le_iff fits _).mp (Nat.le_refl _), ?_⟩
  intro count enough
  exact (toMilliseconds_le_iff fits count).mpr enough

end LayeredCache.Span
