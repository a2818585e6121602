import LayeredCache.Proofs.Tiers.Happenings

/-! Histories of tiers. A deed is one operation and what came of it. To copy entries is to pin and put them one by one,
and whatever a writer does comes after a purge, so that histories are made of deeds that do not fall into others. -/

set_option autoImplicit false

namespace LayeredCache

variable {World Key Value : Type} [DecidableEq Key]

/-- An operation on tiers and what came of it. -/
structure Deed (Key Value : Type) [DecidableEq Key] where
  operation : Operation Key Value
  before : Tiers Key Value
  answer : Answer Value
  events : List (Event Key Value)
  after : Tiers Key Value

/-- An operation that does not fall into others. -/
def Operation.elementary : Operation Key Value → Bool
  | .putAll _ _ => false
  | _ => true

namespace Tiers

def deed (host : Host World Key Value) (operation : Operation Key Value) (tiers : Tiers Key Value)
    (world : World) : Deed Key Value :=
  let outcome := operate host operation tiers world
  ⟨operation, tiers, outcome.1, ((dialogue operation tiers).happenings host world).map Happening.event, outcome.2.1⟩

/-- What copying an entry comes to: nothing where a value is to be kept, else a put, after a pin if it was pinned. -/
def entryDeeds (host : Host World Key Value) (replaceExisting : Bool) (entry : Entry Key Value)
    (tiers : Tiers Key Value) (world : World) : List (Deed Key Value) :=
  if !replaceExisting && tiers.containsKey (host.moment world) entry.key then []
  else if entry.tier = .pinned then
    let pinned := operate host (.pin entry.key) tiers world
    [deed host (.pin entry.key) tiers world, deed host (.put entry.key entry.value) pinned.2.1 pinned.2.2]
  else [deed host (.put entry.key entry.value) tiers world]

def copyDeeds (host : Host World Key Value) (replaceExisting : Bool) :
    List (Entry Key Value) → Tiers Key Value → World → List (Deed Key Value)
  | [], _, _ => []
  | entry :: rest, tiers, world =>
      let copied := putEntry host replaceExisting entry tiers world
      entryDeeds host replaceExisting entry tiers world ++ copyDeeds host replaceExisting rest copied.1 copied.2

/-- The deeds that an operation falls into. -/
def deeds (host : Host World Key Value) (operation : Operation Key Value) (tiers : Tiers Key Value)
    (world : World) : List (Deed Key Value) :=
  match operation with
  | .putAll entries replaceExisting => copyDeeds host replaceExisting entries tiers world
  | operation => [deed host operation tiers world]

/-- The deeds of a writer that holds its cache. -/
def deedsHeld (host : Host World Key Value) (operation : Operation Key Value) (tiers : Tiers Key Value)
    (world : World) : List (Deed Key Value) :=
  match operation with
  | .purgeSoft => [deed host .purgeSoft tiers world]
  | operation =>
      let purged := operate host .purgeSoft tiers world
      deed host .purgeSoft tiers world :: deeds host operation purged.2.1 purged.2.2

/-- A writer purges first. -/
theorem deedsHeld_purge (host : Host World Key Value) (operation : Operation Key Value) (tiers : Tiers Key Value)
    (world : World) : ∃ rest, deedsHeld host operation tiers world = deed host .purgeSoft tiers world :: rest := by
  cases operation with
  | purgeSoft => exact ⟨[], rfl⟩
  | _ => exact ⟨_, rfl⟩

/-- The ways from some tiers to others, deed by deed, each before a host and a world of its own. -/
inductive Course (start : Tiers Key Value) : List (Deed Key Value) → Tiers Key Value → Prop where
  | start : Course start [] start
  | step {World : Type} {past : List (Deed Key Value)} {tiers : Tiers Key Value} (before : Course start past tiers)
      (host : Host World Key Value) (operation : Operation Key Value) (elementary : operation.elementary = true)
      (world : World) :
      Course start (past ++ [deed host operation tiers world]) (operate host operation tiers world).2.1

variable {host : Host World Key Value} {operation : Operation Key Value} {tiers start middle : Tiers Key Value}
  {past future : List (Deed Key Value)} {world : World}

theorem Course.append (first : Course start past middle) (second : Course middle future tiers) :
    Course start (past ++ future) tiers := by
  induction second with
  | start =>
      rw [List.append_nil]
      exact first
  | step _ host operation elementary world ih =>
      rw [← List.append_assoc]
      exact ih.step host operation elementary world

theorem Course.reachable (course : Course start past tiers) (reachable : start.Reachable) : tiers.Reachable := by
  induction course with
  | start => exact reachable
  | step _ host operation _ world ih => exact ih.step host operation world

theorem Course.valid (course : Course start past tiers) (valid : start.Valid) : tiers.Valid := by
  induction course with
  | start => exact valid
  | step _ host operation _ world ih => exact ih.operate host operation world

/-- Wherever a way is cut, a deed is an elementary operation before some host, and what comes before it is a way. -/
theorem Course.split {deeds : List (Deed Key Value)} {done : Deed Key Value} (course : Course start deeds tiers)
    (split : deeds = past ++ done :: future) :
    Course start past done.before ∧ done.operation.elementary = true ∧
      ∃ (World : Type) (host : Host World Key Value) (world : World),
        done = Tiers.deed host done.operation done.before world := by
  induction course generalizing future with
  | start => cases past <;> cases split
  | @step World deeds _ before host operation elementary world ih =>
      rcases List.eq_nil_or_concat future with rfl | ⟨rest, last, rfl⟩
      · obtain ⟨rfl, same⟩ := List.append_inj' split rfl
        obtain rfl := List.singleton_inj.mp same
        exact ⟨before, elementary, World, host, world, rfl⟩
      · rw [List.concat_eq_append, ← List.cons_append, ← List.append_assoc] at split
        exact ih (List.append_inj' split rfl).1

/-- The last deed tells where a way leads. -/
theorem Course.leads {deeds : List (Deed Key Value)} (course : Course start deeds tiers) :
    tiers = (deeds.getLast?.map Deed.after).getD start := by
  cases course with
  | start => rfl
  | step before host operation elementary world =>
      rw [List.getLast?_concat]
      rfl

/-- A way can be cut anywhere. -/
theorem Course.cut {first second : List (Deed Key Value)} (course : Course start (first ++ second) tiers) :
    ∃ between, Course start first between ∧ Course between second tiers := by
  generalize whole : first ++ second = deeds at course
  induction course generalizing second with
  | start =>
      obtain ⟨rfl, rfl⟩ := List.append_eq_nil_iff.mp whole
      exact ⟨start, .start, .start⟩
  | @step World past tiers before host operation elementary world ih =>
      rcases List.eq_nil_or_concat second with rfl | ⟨rest, last, rfl⟩
      · rw [List.append_nil] at whole
        subst whole
        exact ⟨_, before.step host operation elementary world, .start⟩
      · rw [List.concat_eq_append, ← List.append_assoc] at whole
        obtain ⟨rfl, same⟩ := List.append_inj' whole rfl
        obtain rfl := List.singleton_inj.mp same
        obtain ⟨between, reached, left⟩ := ih rfl
        rw [List.concat_eq_append]
        exact ⟨between, reached, left.step host operation elementary world⟩

/-- A deed by itself is a way. -/
theorem Course.deed (host : Host World Key Value) (elementary : operation.elementary = true) (tiers : Tiers Key Value)
    (world : World) : Course tiers [deed host operation tiers world] (operate host operation tiers world).2.1 :=
  Course.start.step host operation elementary world

theorem Course.entry (host : Host World Key Value) (replaceExisting : Bool) (entry : Entry Key Value)
    (tiers : Tiers Key Value) (world : World) :
    Course tiers (entryDeeds host replaceExisting entry tiers world)
      (putEntry host replaceExisting entry tiers world).1 := by
  rw [entryDeeds, putEntry]
  split
  · exact .start
  · split
    · exact (@Course.deed World Key Value _ (.pin entry.key) host rfl tiers world).step host
        (.put entry.key entry.value) rfl _
    · exact @Course.deed World Key Value _ (.put entry.key entry.value) host rfl tiers world

theorem Course.copy (host : Host World Key Value) (replaceExisting : Bool) (entries : List (Entry Key Value))
    (tiers : Tiers Key Value) (world : World) :
    Course tiers (copyDeeds host replaceExisting entries tiers world)
      (putAll host replaceExisting entries tiers world).1 := by
  induction entries generalizing tiers world with
  | nil => exact .start
  | cons entry rest ih => exact (Course.entry host replaceExisting entry tiers world).append (ih _ _)

/-- An operation leads where its deeds lead. -/
theorem Course.operate (host : Host World Key Value) (operation : Operation Key Value) (tiers : Tiers Key Value)
    (world : World) :
    Course tiers (deeds host operation tiers world) (operate host operation tiers world).2.1 := by
  cases operation with
  | putAll entries replaceExisting => exact Course.copy host replaceExisting entries tiers world
  | _ => exact Course.deed host rfl tiers world

theorem Course.operateHeld (host : Host World Key Value) (operation : Operation Key Value) (tiers : Tiers Key Value)
    (world : World) :
    Course tiers (deedsHeld host operation tiers world) (operateHeld host operation tiers world).2.1 := by
  have purge := @Course.deed World Key Value _ .purgeSoft host rfl tiers world
  have rest : Course (purgeSoft host tiers world).2.1 _ (operatePurged host operation tiers world).2.1 :=
    Course.operate host operation _ _
  cases operation with
  | purgeSoft => exact purge
  | _ => exact purge.append rest

end Tiers

end LayeredCache
