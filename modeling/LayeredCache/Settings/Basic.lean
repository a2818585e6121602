import LayeredCache.Tier.Primary
import LayeredCache.Time
import LayeredCache.Text

/-!
# Settings

The parameters of a cache: their defaults, the setters that build them up, the two values that are refused, and the room
that is asked for in advance.
-/

set_option autoImplicit false

namespace LayeredCache

structure Settings where
  lru : Bool := false
  cacheSize : UInt64 := 1000
  softReferenceSize : UInt64 := 1000
  /-- How long an operation waits for the lock, in milliseconds. -/
  lockTimeout : UInt64 := 1000
  concurrencyLevel : UInt64 := 16
  /-- The age at which an entry of the soft tier dies, in milliseconds. -/
  softTtl : Option UInt64 := none
  deriving DecidableEq, Repr

inductive SettingsFault where
  | zeroConcurrencyLevel
  | zeroSoftTtl
  deriving DecidableEq, Repr

def SettingsFault.message : SettingsFault → String
  | zeroConcurrencyLevel => "concurrency_level must be > 0"
  | zeroSoftTtl => "soft_ttl must be > 0 when set"

/-- Why there is no cache to be had of settings. -/
inductive BuildFault where
  | refused (fault : SettingsFault)
  /-- The entries that are to have room from the start are more than there can be room for; this stops the program. -/
  | overflow
  deriving DecidableEq, Repr

def BuildFault.message : BuildFault → String
  | refused fault => fault.message
  | overflow => "capacity overflow"

inductive Setter where
  | lru (flag : Bool)
  | cacheSize (size : UInt64)
  | softReferenceSize (size : UInt64)
  | concurrencyLevel (level : UInt64)
  | lockTimeout (timeout : Span)
  | softTtl (ttl : Span)
  | restart (settings : Settings)
  deriving DecidableEq, Repr

namespace Settings

/-- The settings after a call; spans are rounded up to milliseconds. -/
def set (settings : Settings) : Setter → Settings
  | .lru flag => { settings with lru := flag }
  | .cacheSize size => { settings with cacheSize := size }
  | .softReferenceSize size => { settings with softReferenceSize := size }
  | .concurrencyLevel level => { settings with concurrencyLevel := level }
  | .lockTimeout timeout => { settings with lockTimeout := timeout.toMilliseconds.toUInt64 }
  | .softTtl ttl => { settings with softTtl := some ttl.toMilliseconds.toUInt64 }
  | .restart other => other

def ofSetters (setters : List Setter) : Settings := setters.foldl set {}

/-- Refuses a concurrency level of zero, and then a lifetime of zero. -/
def validate (settings : Settings) : Except SettingsFault Unit :=
  if settings.concurrencyLevel = 0 then .error .zeroConcurrencyLevel
  else if settings.softTtl = some 0 then .error .zeroSoftTtl
  else .ok ()

/-- For how many entries a tier is given room from the start, if it may come to hold as many. -/
def roomHint (settings : Settings) : Nat := min (settings.concurrencyLevel.toNat * 64) (UInt64.size - 1)

def evictionOrder (settings : Settings) : EvictionOrder := .ofFlag settings.lru

def lockTimeoutSpan (settings : Settings) : Span := .ofMilliseconds settings.lockTimeout.toNat

def softTtlSpan (settings : Settings) : Option Span :=
  settings.softTtl.map fun milliseconds => .ofMilliseconds milliseconds.toNat

def layout (settings : Settings) : Text.Layout :=
  let lifetime := match settings.softTtl with
    | none => "None"
    | some milliseconds => "Some(" ++ toString milliseconds.toNat ++ ")"
  .record "CacheMapConfig" (.ofList [
    ("lru", .atom (toString settings.lru)),
    ("cache_size", .atom (toString settings.cacheSize.toNat)),
    ("soft_reference_size", .atom (toString settings.softReferenceSize.toNat)),
    ("lock_timeout_ms", .atom (toString settings.lockTimeout.toNat)),
    ("concurrency_level", .atom (toString settings.concurrencyLevel.toNat)),
    ("soft_ttl_ms", .atom lifetime)]) false

end Settings

end LayeredCache
