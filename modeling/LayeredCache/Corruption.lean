import LayeredCache.Text

/-!
# Inconsistent structures

What an audit of a cache can find wrong, and the sentence that reports it.
-/

set_option autoImplicit false

namespace LayeredCache

inductive Corruption where
  | danglingSlot (slot : Nat)
  | brokenBackLink (slot : Nat)
  | unindexedSlot (slot : Nat)
  /-- The chain is longer than the index. -/
  | cycle
  | looseTail
  /-- The chain is shorter than the index. -/
  | lengthMismatch (chain index : Nat)
  | primaryOverfull (size capacity : Nat)
  | softOverfull (size capacity : Nat)
  | pinnedInPrimary
  /-- A key in the soft tier holds a value in another tier. -/
  | softElsewhere
  /-- A finding described by whoever reports it. -/
  | described (description : String)
  deriving DecidableEq, Repr

def Corruption.message : Corruption → String
  | danglingSlot slot => "dangling slot " ++ toString slot
  | brokenBackLink slot => "broken back-link at slot " ++ toString slot
  | unindexedSlot slot => "slot " ++ toString slot ++ " not reachable from index"
  | cycle => "cycle detected in link chain"
  | looseTail => "tail does not terminate the chain"
  | lengthMismatch chain index =>
      "chain length " ++ toString chain ++ " != index length " ++ toString index
  | primaryOverfull size capacity =>
      "primary tier holds " ++ toString size ++ " entries, capacity " ++ toString capacity
  | softOverfull size capacity =>
      "soft tier holds " ++ toString size ++ " entries, capacity " ++ toString capacity
  | pinnedInPrimary => "pinned key also present in primary tier"
  | softElsewhere => "soft key also holds a value in another tier"
  | described description => description

def Corruption.debug (finding : Corruption) : String :=
  "InvariantError(" ++ Text.quoted finding.message ++ ")"

end LayeredCache
