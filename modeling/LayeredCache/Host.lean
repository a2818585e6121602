import LayeredCache.Metrics.Tally
import LayeredCache.Time

/-!
# Hosts

A cache neither owns its clock nor knows what its listeners do. A host answers for both: it tells the time and the
epoch, keeps the counts, and is notified of every entry that leaves the primary or the soft tier without being asked
for. Whatever a notification sets in motion changes the world of the host, never the tiers of the cache.
-/

set_option autoImplicit false

namespace LayeredCache

inductive Event (Key Value : Type) where
  /-- The primary tier gave up an entry, which the soft tier is about to accept or which is dropped. -/
  | primaryOverflow (key : Key) (value : Value) (demoted : Bool)
  | softOverflow (key : Key) (value : Value)
  | softReclaimed (key : Key)
  deriving DecidableEq, Repr

/-- The surroundings of a cache, as a world that the cache can read and act upon. -/
structure Host (World Key Value : Type) where
  clock : World → Instant
  epoch : World → Epoch
  record : Metrics.Recording → World → World
  notify : Event Key Value → World → World

namespace Host

variable {World Key Value : Type}

def moment (host : Host World Key Value) (world : World) : Moment :=
  ⟨host.clock world, host.epoch world⟩

/-- A host without listeners, whose clock and epoch stand still and whose world is the tally. -/
def still (moment : Moment) : Host Metrics.Tally Key Value where
  clock _ := moment.instant
  epoch _ := moment.epoch
  record recording tally := tally.record recording
  notify _ tally := tally

end Host

end LayeredCache
