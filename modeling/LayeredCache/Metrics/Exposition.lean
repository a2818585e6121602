import LayeredCache.Metrics.Snapshot

/-!
# Exposition

A snapshot as text: for each metric a line with its name and kind and a line with its name and reading. All names may
carry a common label in front.
-/

set_option autoImplicit false

namespace LayeredCache.Metrics

def Metric.kind : Metric → String
  | .counter _ => "counter"
  | .gauge _ => "gauge"

namespace Exposition

/-- What is exposed, in order: the names without the label, and what is read under each. -/
def rows : List (String × Metric) :=
  [("get_calls_total", .counter .getCalls),
    ("get_pinned_hits_total", .counter .getPinnedHits),
    ("get_primary_hits_total", .counter .getPrimaryHits),
    ("get_soft_hits_total", .counter .getSoftHits),
    ("get_misses_total", .counter .getMisses),
    ("put_calls_total", .counter .putCalls),
    ("put_new_total", .counter .putNew),
    ("put_updates_total", .counter .putUpdates),
    ("put_pinned_total", .counter .putPinned),
    ("remove_calls_total", .counter .removeCalls),
    ("remove_found_total", .counter .removeFound),
    ("pin_calls_total", .counter .pinCalls),
    ("pin_found_total", .counter .pinFound),
    ("unpin_calls_total", .counter .unpinCalls),
    ("unpin_found_total", .counter .unpinFound),
    ("primary_overflows_total", .counter .primaryOverflows),
    ("soft_demotions_total", .counter .softDemotions),
    ("soft_overflows_total", .counter .softOverflows),
    ("soft_promotions_total", .counter .softPromotions),
    ("soft_reclaimed_total", .counter .softReclaimed),
    ("lock_timeouts_total", .counter .lockTimeouts),
    ("clears_total", .counter .clears),
    ("pinned_len", .gauge .pinnedLength),
    ("primary_len", .gauge .primaryLength),
    ("soft_len", .gauge .softLength),
    ("cache_size", .gauge .cacheSize),
    ("soft_reference_size", .gauge .softReferenceSize)]

def qualifiedName (label name : String) : String :=
  if label.isEmpty then name else label ++ "_" ++ name

def lines (label name kind : String) (value : Nat) : String :=
  "# TYPE " ++ qualifiedName label name ++ " " ++ kind ++ "\n" ++
    qualifiedName label name ++ " " ++ toString value ++ "\n"

def text (label : String) (snapshot : Snapshot) : String :=
  String.join (rows.map fun row => lines label row.1 row.2.kind (snapshot.value row.2))

/-- What arrives of a text that is cut off after so many bytes; a character that is cut through is shown by the
replacement character. -/
def accepted (limit : Nat) (text : String) : String :=
  String.ofList (take limit text.toList)
where
  take : Nat → List Char → List Char
    | _, [] => []
    | limit, character :: rest =>
        if character.utf8Size ≤ limit then character :: take (limit - character.utf8Size) rest
        else if limit = 0 then [] else ['\uFFFD']

end Exposition

end LayeredCache.Metrics
