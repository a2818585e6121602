import LayeredCache.Metrics.Exposition
import Mathlib.Data.List.Nodup

/-! Expositions can be read back. A reader that knows the label takes a text apart from the left, sample by sample: the
label may hold blanks and line ends, but names hold no blanks, kinds no line ends and numbers digits alone. Looking the
metrics up among the samples gives back the snapshot. -/

set_option autoImplicit false

namespace LayeredCache.Metrics

/-- The name of a metric in an exposition, without the label: that of a counter tells that it is a total. -/
def Metric.exposedName : Metric → String
  | .counter which => which.name ++ "_total"
  | .gauge which => which.name

namespace Exposition

/-- What an exposition says of one metric, its name without the label. -/
structure Sample where
  name : String
  kind : String
  value : Nat
  deriving DecidableEq, Repr

/-- What stands in front of every name. -/
def front (label : String) : String := if label = "" then "" else label ++ "_"

def Sample.lines (label : String) (sample : Sample) : String :=
  "# TYPE " ++ (front label ++ sample.name) ++ " " ++ sample.kind ++ "\n" ++
    (front label ++ sample.name) ++ " " ++ toString sample.value ++ "\n"

/-- What follows the given characters, if they stand at the start of a text. -/
def after? : List Char → List Char → Option (List Char)
  | [], text => some text
  | _ :: _, [] => none
  | expected :: rest, character :: text => if expected = character then after? rest text else none

/-- What stands before a character in a text, and what follows it. -/
def upTo? (stop : Char) : List Char → Option (List Char × List Char)
  | [] => none
  | character :: text =>
      if character = stop then some ([], text)
      else (upTo? stop text).map fun found => (character :: found.1, found.2)

/-- The number that digits write. -/
def decimal? (digits : List Char) : Option Nat :=
  if digits ≠ [] ∧ digits.all Char.isDigit then some (Nat.ofDigitChars 10 digits 0) else none

/-- What a line with a name and a kind starts with. -/
def mark : List Char := ['#', ' ', 'T', 'Y', 'P', 'E', ' ']

def sample? (front text : List Char) : Option (Sample × List Char) := do
  let text ← after? mark text
  let text ← after? front text
  let (name, text) ← upTo? ' ' text
  let (kind, text) ← upTo? '\n' text
  let text ← after? front text
  let text ← after? name text
  let text ← after? [' '] text
  let (digits, text) ← upTo? '\n' text
  let value ← decimal? digits
  some (⟨String.ofList name, String.ofList kind, value⟩, text)

/-- Reads a text of so many samples and nothing else. -/
def samples? (front : List Char) : Nat → List Char → Option (List Sample)
  | 0, [] => some []
  | 0, _ :: _ => none
  | count + 1, text => do
      let (sample, text) ← sample? front text
      let samples ← samples? front count text
      some (sample :: samples)

def shown? (samples : List Sample) (metric : Metric) : Option Nat :=
  (samples.find? fun sample => sample.name = metric.exposedName ∧ sample.kind = metric.kind).map Sample.value

/-- The snapshot that an exposition shows, if it shows every metric. -/
def read? (label text : String) : Option Snapshot := do
  let samples ← samples? (front label).toList Metric.all.length text.toList
  if ∀ metric ∈ Metric.all, (shown? samples metric).isSome then
    some (.ofValues fun metric => (shown? samples metric).getD 0)
  else none

theorem after?_append (expected text : List Char) : after? expected (expected ++ text) = some text := by
  induction expected with
  | nil => rfl
  | cons character rest ih => rw [List.cons_append, after?, if_pos rfl, ih]

theorem upTo?_append {stop : Char} {word : List Char} (within : stop ∉ word) (text : List Char) :
    upTo? stop (word ++ stop :: text) = some (word, text) := by
  induction word with
  | nil => rw [List.nil_append, upTo?, if_pos rfl]
  | cons character rest ih =>
      obtain ⟨apart, others⟩ := not_or.mp (List.mem_cons.not.mp within)
      rw [List.cons_append, upTo?, if_neg fun same => apart same.symm, ih others]
      rfl

theorem digits_of_mem_toString {value : Nat} {character : Char} (listed : character ∈ (toString value).toList) :
    character.isDigit := by
  rw [Nat.toString_eq_ofList_toDigits, String.toList_ofList] at listed
  exact Nat.isDigit_of_mem_toDigits (by decide) (by decide) listed

theorem newline_not_mem_digits (value : Nat) : '\n' ∉ (toString value).toList := by
  intro listed
  exact absurd (digits_of_mem_toString listed) (by decide)

theorem decimal?_toString (value : Nat) : decimal? (toString value).toList = some value := by
  have nonempty : (toString value).toList ≠ [] := by
    rw [Nat.toString_eq_ofList_toDigits, String.toList_ofList]
    exact Nat.toDigits_ne_nil
  rw [decimal?, if_pos ⟨nonempty, List.all_eq_true.mpr fun _ => digits_of_mem_toString⟩, Nat.toString_eq_ofList_toDigits,
    String.toList_ofList, Nat.ofDigitChars_ten_toDigits]

/-- The name of a sample holds no blank, and its kind no line end. -/
structure Sample.Plain (sample : Sample) : Prop where
  name : ' ' ∉ sample.name.toList
  kind : '\n' ∉ sample.kind.toList

theorem Sample.toList_lines (sample : Sample) (label : String) : (sample.lines label).toList =
    mark ++ ((front label).toList ++ (sample.name.toList ++ ' ' :: (sample.kind.toList ++ '\n' ::
      ((front label).toList ++ (sample.name.toList ++ ' ' :: ((toString sample.value).toList ++ ['\n'])))))) := by
  have marked : "# TYPE ".toList = mark := rfl
  have blank : " ".toList = [' '] := rfl
  have newline : "\n".toList = ['\n'] := rfl
  delta Sample.lines
  simp only [String.toList_append, marked, blank, newline, List.append_assoc, List.cons_append, List.nil_append]

theorem sample?_lines {sample : Sample} (plain : sample.Plain) (label : String) (text : List Char) :
    sample? (front label).toList ((sample.lines label).toList ++ text) = some (sample, text) := by
  have blank (text : List Char) : after? [' '] (' ' :: text) = some text := after?_append [' '] text
  rw [sample.toList_lines, sample?]
  simp only [List.append_assoc, List.cons_append, List.nil_append, Option.bind_eq_bind, Option.bind_some, after?_append,
    blank, upTo?_append plain.name, upTo?_append plain.kind, upTo?_append (newline_not_mem_digits _), decimal?_toString,
    String.ofList_toList]

theorem samples?_join {samples : List Sample} (plain : ∀ sample ∈ samples, sample.Plain) (label : String) :
    samples? (front label).toList samples.length (String.join (samples.map (Sample.lines label))).toList =
      some samples := by
  induction samples with
  | nil => rfl
  | cons sample rest ih =>
      obtain ⟨here, others⟩ := List.forall_mem_cons.mp plain
      rw [List.map_cons, String.join_cons, String.toList_append, List.length_cons, samples?, sample?_lines here]
      simp only [Option.bind_eq_bind, Option.bind_some, ih others]

theorem qualifiedName_eq (label name : String) : qualifiedName label name = front label ++ name := by
  rw [qualifiedName, front]
  by_cases bare : label = ""
  · rw [if_pos (String.isEmpty_iff.mpr bare), if_pos bare, String.empty_append]
  · rw [if_neg (mt String.isEmpty_iff.mp bare), if_neg bare]

/-- What an exposition says of a metric of a snapshot. -/
def sampleOf (snapshot : Snapshot) (metric : Metric) : Sample :=
  ⟨metric.exposedName, metric.kind, snapshot.value metric⟩

/-- Every metric is exposed once, under its own name. -/
theorem rows_eq : rows = Metric.all.map fun metric => (metric.exposedName, metric) := by
  decide +kernel

theorem lines_eq (label : String) (sample : Sample) :
    lines label sample.name sample.kind sample.value = sample.lines label := by
  delta lines Sample.lines
  rw [qualifiedName_eq]

theorem text_eq_join (label : String) (snapshot : Snapshot) :
    text label snapshot = String.join ((Metric.all.map (sampleOf snapshot)).map (Sample.lines label)) := by
  rw [text, rows_eq, List.map_map, List.map_map]
  refine congrArg (fun each => String.join (Metric.all.map each)) (funext fun metric => ?_)
  exact lines_eq label (sampleOf snapshot metric)

theorem plain_sampleOf (snapshot : Snapshot) (metric : Metric) : (sampleOf snapshot metric).Plain := by
  have plain : ∀ metric ∈ Metric.all, ' ' ∉ metric.exposedName.toList ∧ '\n' ∉ metric.kind.toList := by
    decide +kernel
  exact ⟨(plain metric metric.mem_all).1, (plain metric metric.mem_all).2⟩

theorem nodup_exposedNames : (Metric.all.map Metric.exposedName).Nodup := by
  decide +kernel

theorem exposedName_injective : Function.Injective Metric.exposedName := fun left right same =>
  List.inj_on_of_nodup_map nodup_exposedNames left.mem_all right.mem_all same

theorem shown?_samples (snapshot : Snapshot) (metric : Metric) :
    shown? (Metric.all.map (sampleOf snapshot)) metric = some (snapshot.value metric) := by
  have alone (other : Metric) : (other.exposedName = metric.exposedName ∧ other.kind = metric.kind) ↔ other = metric :=
    ⟨fun same => exposedName_injective same.1, fun same => same ▸ ⟨rfl, rfl⟩⟩
  rw [shown?, List.find?_map, Option.map_map]
  simp only [Function.comp_def, sampleOf, alone]
  cases found : Metric.all.find? fun other => other = metric with
  | none => exact absurd (decide_eq_true rfl) (List.find?_eq_none.mp found metric metric.mem_all)
  | some other =>
      have chosen := List.find?_some found
      obtain rfl : other = metric := of_decide_eq_true chosen
      rfl

/-- Whatever there is room for arrives. -/
theorem take_append (text : List Char) (room : Nat) :
    accepted.take ((String.ofList text).utf8ByteSize + room) text = text := by
  induction text with
  | nil => rfl
  | cons character rest ih =>
      have size : (String.ofList (character :: rest)).utf8ByteSize =
          character.utf8Size + (String.ofList rest).utf8ByteSize := by
        rw [← String.utf8ByteSize_singleton, ← String.utf8ByteSize_append]
        exact congrArg String.utf8ByteSize (String.toList_injective (by simp))
      rw [accepted.take, size, if_pos (by omega), Nat.add_assoc, Nat.add_sub_cancel_left, ih]

theorem accepted_of_room (text : String) (room : Nat) : accepted (text.utf8ByteSize + room) text = text := by
  have taken := take_append text.toList room
  rw [String.ofList_toList] at taken
  rw [accepted, taken, String.ofList_toList]

end Exposition

/-- A snapshot is known by its readings. -/
theorem Snapshot.ofValues_value (snapshot : Snapshot) : ofValues snapshot.value = snapshot := by
  obtain ⟨tally, gauge⟩ := snapshot
  refine congrArg (Snapshot.mk · gauge) (Tally.eq_of_count_eq fun counter => ?_)
  rw [Tally.count_ofCounts]
  exact UInt64.ofNat_toNat

namespace Exposition

theorem read?_text (label : String) (snapshot : Snapshot) : read? label (text label snapshot) = some snapshot := by
  have plain : ∀ sample ∈ Metric.all.map (sampleOf snapshot), sample.Plain := by
    intro sample listed
    obtain ⟨metric, -, rfl⟩ := List.mem_map.mp listed
    exact plain_sampleOf snapshot metric
  have taken := samples?_join plain label
  rw [List.length_map] at taken
  rw [read?, text_eq_join, taken]
  simp only [Option.bind_eq_bind, Option.bind_some, shown?_samples, Option.isSome_some, implies_true, ↓reduceIte,
    Option.getD_some, Snapshot.ofValues_value]

/-- The exposition of a snapshot is a pair of lines for each of the counters and gauges, every one under a name of its own
and of its own kind; it arrives whole wherever there is room; a reader that knows the label gets the snapshot back; and so,
under one label, different snapshots have different expositions. -/
theorem snapshots_are_read_back (label : String) (snapshot : Snapshot) :
    (∃ samples : List Sample,
      text label snapshot = String.join (samples.map (Sample.lines label)) ∧
      samples.length = 27 ∧ (samples.map Sample.name).Nodup ∧
      (∀ counter : Counter,
        ⟨counter.name ++ "_total", "counter", (snapshot.tally.count counter).toNat⟩ ∈ samples) ∧
      ∀ gauge : Gauge, ⟨gauge.name, "gauge", snapshot.gauge gauge⟩ ∈ samples) ∧
    (∀ room, accepted ((text label snapshot).utf8ByteSize + room) (text label snapshot) = text label snapshot) ∧
    read? label (text label snapshot) = some snapshot ∧
    ∀ other : Snapshot, text label other = text label snapshot ↔ other = snapshot := by
  refine ⟨⟨Metric.all.map (sampleOf snapshot), text_eq_join label snapshot, ?_, ?_, ?_, ?_⟩,
    accepted_of_room _, read?_text label snapshot, ?_⟩
  · rw [List.length_map]
    rfl
  · rw [List.map_map]
    exact nodup_exposedNames
  · intro counter
    exact List.mem_map_of_mem (Metric.mem_all (.counter counter))
  · intro gauge
    exact List.mem_map_of_mem (Metric.mem_all (.gauge gauge))
  · intro other
    refine ⟨?_, fun same => same ▸ rfl⟩
    intro same
    have read := read?_text label other
    rw [same, read?_text] at read
    exact (Option.some.inj read).symm

end Exposition

end LayeredCache.Metrics
