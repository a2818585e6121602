import LayeredCache.Settings.Basic

/-!
# The settings one by one

Each setting has a name, a type of values, and a preset that stands for it where it is not given.
-/

set_option autoImplicit false

namespace LayeredCache.Settings

inductive Field where
  | lru | cacheSize | softReferenceSize | lockTimeout | concurrencyLevel | softTtl
  deriving DecidableEq, Repr

namespace Field

def all : List Field := [lru, cacheSize, softReferenceSize, lockTimeout, concurrencyLevel, softTtl]

def name : Field → String
  | lru => "lru"
  | cacheSize => "cache_size"
  | softReferenceSize => "soft_reference_size"
  | lockTimeout => "lock_timeout_ms"
  | concurrencyLevel => "concurrency_level"
  | softTtl => "soft_ttl_ms"

def named? (name : List Char) : Option Field :=
  all.find? fun field => field.name.toList = name

def Value : Field → Type
  | lru => Bool
  | cacheSize | softReferenceSize | lockTimeout | concurrencyLevel => UInt64
  | softTtl => Option UInt64

/-- What a setting is where it is not given. -/
def preset : (field : Field) → field.Value
  | lru => false
  | cacheSize => (1000 : UInt64)
  | softReferenceSize => (1000 : UInt64)
  | lockTimeout => (1000 : UInt64)
  | concurrencyLevel => (16 : UInt64)
  | softTtl => none

end Field

def value (settings : Settings) : (field : Field) → field.Value
  | .lru => settings.lru
  | .cacheSize => settings.cacheSize
  | .softReferenceSize => settings.softReferenceSize
  | .lockTimeout => settings.lockTimeout
  | .concurrencyLevel => settings.concurrencyLevel
  | .softTtl => settings.softTtl

def ofValues (value : (field : Field) → field.Value) : Settings where
  lru := value .lru
  cacheSize := value .cacheSize
  softReferenceSize := value .softReferenceSize
  lockTimeout := value .lockTimeout
  concurrencyLevel := value .concurrencyLevel
  softTtl := value .softTtl

@[simp] theorem value_ofValues (value : (field : Field) → field.Value) (field : Field) :
    (ofValues value).value field = value field := by
  cases field <;> rfl

@[simp] theorem ofValues_value (settings : Settings) : ofValues settings.value = settings := rfl

/-- Settings are known by their values. -/
theorem eq_of_value_eq {left right : Settings} (same : ∀ field, left.value field = right.value field) :
    left = right := by
  rw [← ofValues_value left, funext same, ofValues_value]

end LayeredCache.Settings
