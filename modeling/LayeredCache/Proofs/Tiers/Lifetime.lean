import LayeredCache.Proofs.Tier.Ageing
import LayeredCache.Proofs.Tiers.SoftLine

/-! Tiers in the course of time. As long as neither the clock nor the epoch runs backwards, whatever else the host does
when it records or notifies, the stamps of the soft tier never decrease and none is ahead of its time. -/

set_option autoImplicit false

namespace LayeredCache

variable {World Key Value : Type}

/-- Nothing that a cache does to its surroundings sets the time or the epoch back. -/
def Host.Forward (host : Host World Key Value) : Prop :=
  host.Moves fun before after => (host.moment before).Before (host.moment after)

/-- Stamps in order, none of which is ahead of the instant read and the present epoch. -/
def Host.Ages (host : Host World Key Value) (read now : World) (_ : Option Span)
    (line : List (Key × Stamped Value)) : Prop :=
  host.clock read ≤ host.clock now ∧ Aged ⟨host.clock read, host.epoch now⟩ line

theorem Host.Forward.ages_later {host : Host World Key Value} {read now later : World} {ttl : Option Span}
    {line : List (Key × Stamped Value)} (moved : (host.moment now).Before (host.moment later))
    (ages : host.Ages read now ttl line) : host.Ages read later ttl line := by
  obtain ⟨order, aged⟩ := ages
  exact ⟨order.trans moved.instant, aged.mono ⟨Nat.le_refl _, moved.epoch⟩⟩

theorem Host.Forward.law {host : Host World Key Value} (forward : host.Forward) : Law host host.Ages where
  sublist ages included := ⟨ages.1, ages.2.sublist included⟩
  record recording ages := ages_later (forward.record recording _) ages
  notify event ages := ages_later (forward.notify event _) ages
  reread ages := ⟨Nat.le_refl _, ages.2.mono ⟨ages.1, UInt64.le_refl _⟩⟩
  accepted key value ages := by
    refine ⟨ages.1, ages.2.append ?_⟩
    intro entry member
    rw [List.mem_singleton.mp member]

namespace Tiers

variable [DecidableEq Key]

/-- Tiers that operations can lead to until a moment, while the time and the epoch only move forward, between operations
and inside them. -/
inductive Lived : Tiers Key Value → Moment → Prop where
  | fresh (order : EvictionOrder) (cacheSize softReferenceSize : Nat) (ttl : Option Span) (moment : Moment) :
      Lived (.empty order cacheSize softReferenceSize ttl) moment
  | later {tiers : Tiers Key Value} {moment next : Moment} (before : Lived tiers moment)
      (passed : moment.Before next) : Lived tiers next
  | step {World : Type} {tiers : Tiers Key Value} {host : Host World Key Value} {world : World}
      (before : Lived tiers (host.moment world)) (forward : host.Forward) (operation : Operation Key Value) :
      Lived (operate host operation tiers world).2.1 (host.moment (operate host operation tiers world).2.2)

variable {tiers : Tiers Key Value} {moment : Moment}

theorem Lived.reachable (lived : Lived tiers moment) : tiers.Reachable := by
  induction lived with
  | fresh order cacheSize softReferenceSize ttl moment => exact .fresh order cacheSize softReferenceSize ttl
  | later before passed ih => exact ih
  | step before forward operation ih => exact ih.step _ operation _

theorem Lived.aged (lived : Lived tiers moment) : Aged moment tiers.soft.toList := by
  induction lived with
  | fresh order cacheSize softReferenceSize ttl moment => exact ⟨List.Pairwise.nil, nofun⟩
  | later before passed ih => exact ih.mono passed
  | @step World tiers host world before forward operation ih =>
      have start : Obeys host.Ages world (tiers, world) := ⟨Nat.le_refl _, ih⟩
      exact (start.operate forward.law operation).2

end Tiers

end LayeredCache
