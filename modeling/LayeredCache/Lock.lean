import LayeredCache.Time
import LayeredCache.Text

/-!
# Locks

A cache is held by any number of readers or by one writer. An operation that waits longer than it may for a hold gives
up and reports which operation waited for which hold, and how long.
-/

set_option autoImplicit false

namespace LayeredCache

inductive LockMode where
  | shared | exclusive
  deriving DecidableEq, Repr

inductive Hold where
  | free
  | held (mode : LockMode)
  deriving DecidableEq, Repr

/-- Whether a hold leaves room for another. Only readers tolerate each other. -/
def Hold.admits : Hold → LockMode → Bool
  | .free, _ => true
  | .held .shared, .shared => true
  | .held _, _ => false

namespace LockMode

def word : LockMode → String
  | shared => "shared"
  | exclusive => "exclusive"

def name : LockMode → String
  | shared => "Shared"
  | exclusive => "Exclusive"

end LockMode

structure LockTimeout where
  operation : String
  mode : LockMode
  timeout : Span
  deriving DecidableEq, Repr

namespace LockTimeout

def message (timeout : LockTimeout) : String :=
  timeout.operation ++ ": timed out after " ++ timeout.timeout.text ++ " waiting for the " ++
    timeout.mode.word ++ " lock"

def layout (timeout : LockTimeout) : Text.Layout :=
  .record "LockTimeout" (.ofList [
    ("operation", .atom (Text.quoted timeout.operation)),
    ("mode", .atom timeout.mode.name),
    ("timeout", .atom timeout.timeout.text)]) false

end LockTimeout

end LayeredCache
