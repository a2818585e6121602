import LayeredCache.Tiers.Operations

/-! Operations as dialogues. An operation talks to its host: it asks for the time, has something counted, or tells an
event; what it does next depends on its host by the answers alone. Written down as a tree of what is said next, an
operation is one thing, whatever host and world it is carried out before, and induction over such trees covers all
operations at once. -/

set_option autoImplicit false

namespace LayeredCache

variable {World Key Value Result Other : Type}

/-- What is said to a host, in order, and what comes of it. -/
inductive Dialogue (Key Value Result : Type) where
  | done (result : Result)
  | record (recording : Metrics.Recording) (next : Dialogue Key Value Result)
  | notify (event : Event Key Value) (next : Dialogue Key Value Result)
  | clock (next : Instant → Dialogue Key Value Result)
  | epoch (next : Epoch → Dialogue Key Value Result)

namespace Dialogue

def run (host : Host World Key Value) : Dialogue Key Value Result → World → Result × World
  | done result, world => (result, world)
  | record recording next, world => next.run host (host.record recording world)
  | notify event next, world => next.run host (host.notify event world)
  | clock next, world => (next (host.clock world)).run host world
  | epoch next, world => (next (host.epoch world)).run host world

def bind : Dialogue Key Value Result → (Result → Dialogue Key Value Other) → Dialogue Key Value Other
  | done result, rest => rest result
  | record recording next, rest => record recording (next.bind rest)
  | notify event next, rest => notify event (next.bind rest)
  | clock next, rest => clock fun instant => (next instant).bind rest
  | epoch next, rest => epoch fun answer => (next answer).bind rest

instance : Monad (Dialogue Key Value) where
  pure := done
  bind := bind

@[simp] theorem run_pure (host : Host World Key Value) (result : Result) (world : World) :
    (pure result : Dialogue Key Value Result).run host world = (result, world) := rfl

@[simp] theorem run_bind (host : Host World Key Value) (dialogue : Dialogue Key Value Result)
    (rest : Result → Dialogue Key Value Other) (world : World) :
    (dialogue >>= rest).run host world =
      (rest (dialogue.run host world).1).run host (dialogue.run host world).2 := by
  change (dialogue.bind rest).run host world = _
  induction dialogue generalizing world with
  | done result => rfl
  | record recording next ih => exact ih _
  | notify event next ih => exact ih _
  | clock next ih => exact ih _ _
  | epoch next ih => exact ih _ _

def count (recording : Metrics.Recording) : Dialogue Key Value Unit := record recording (done ())

def tell (event : Event Key Value) : Dialogue Key Value Unit := notify event (done ())

def askInstant : Dialogue Key Value Instant := clock done

def askEpoch : Dialogue Key Value Epoch := epoch done

def askMoment : Dialogue Key Value Moment := clock fun instant => epoch fun epoch => done ⟨instant, epoch⟩

@[simp] theorem run_count (host : Host World Key Value) (recording : Metrics.Recording) (world : World) :
    (count recording : Dialogue Key Value Unit).run host world = ((), host.record recording world) := rfl

@[simp] theorem run_tell (host : Host World Key Value) (event : Event Key Value) (world : World) :
    (tell event).run host world = ((), host.notify event world) := rfl

@[simp] theorem run_askInstant (host : Host World Key Value) (world : World) :
    askInstant.run host world = (host.clock world, world) := rfl

@[simp] theorem run_askEpoch (host : Host World Key Value) (world : World) :
    askEpoch.run host world = (host.epoch world, world) := rfl

@[simp] theorem run_askMoment (host : Host World Key Value) (world : World) :
    askMoment.run host world = (host.moment world, world) := rfl

/-! ### The operations -/

def announceSoftOverflow (entry : Key × Value) : Dialogue Key Value Unit := do
  count .softOverflow
  tell (.softOverflow entry.1 entry.2)

variable [DecidableEq Key]

def demote (instant : Instant) (entry : Key × Value) (tiers : Tiers Key Value) :
    Dialogue Key Value (Tiers Key Value) := do
  let demoted := decide (0 < tiers.soft.capacity)
  count (.primaryOverflow demoted)
  tell (.primaryOverflow entry.1 entry.2 demoted)
  if demoted then
    let epoch ← askEpoch
    match tiers.soft.accept ⟨instant, epoch⟩ entry.1 entry.2 with
    | (none, soft) => pure { tiers with soft }
    | (some dropped, soft) => do
        announceSoftOverflow dropped
        pure { tiers with soft }
  else pure tiers

def demoteAll (instant : Instant) : List (Key × Value) → Tiers Key Value → Dialogue Key Value (Tiers Key Value)
  | [], tiers => pure tiers
  | entry :: rest, tiers => demote instant entry tiers >>= demoteAll instant rest

def insertPrimary (instant : Instant) (key : Key) (value : Value) (tiers : Tiers Key Value) :
    Dialogue Key Value (Option Value × Tiers Key Value) := do
  let (insertion, primary) := tiers.primary.insert key value
  match insertion.overflow with
  | none => pure (insertion.previous, { tiers with primary })
  | some entry => do
      let tiers ← demote instant entry { tiers with primary }
      pure (insertion.previous, tiers)

def get (key : Key) (tiers : Tiers Key Value) : Dialogue Key Value (Option Value × Tiers Key Value) := do
  count .getCall
  match tiers.pinned.slot? key with
  | some (some value) => do
      count .getPinnedHit
      pure (some value, tiers)
  | some none => do
      count .getMiss
      pure (none, tiers)
  | none =>
      match tiers.primary.get key with
      | (some value, primary) => do
          count .getPrimaryHit
          pure (some value, { tiers with primary })
      | (none, _) => do
          let moment ← askMoment
          match tiers.soft.take moment key with
          | (some value, soft) => do
              count .getSoftHit
              count .softPromotion
              let (_, tiers) ← insertPrimary moment.instant key value { tiers with soft }
              pure (some value, tiers)
          | (none, soft) => do
              count .getMiss
              pure (none, { tiers with soft })

def put (key : Key) (value : Value) (tiers : Tiers Key Value) :
    Dialogue Key Value (Option Value × Tiers Key Value) := do
  count .putCall
  match tiers.pinned.replace? key value with
  | some (previous, pinned) => do
      count .putPinned
      pure (previous, { tiers with pinned })
  | none => do
      let moment ← askMoment
      let (softPrevious, soft) := tiers.soft.take moment key
      let (primaryPrevious, tiers) ← insertPrimary moment.instant key value { tiers with soft }
      let previous := primaryPrevious.or softPrevious
      count (if previous.isSome then .putUpdate else .putNew)
      pure (previous, tiers)

def countIf (found : Bool) (recording : Metrics.Recording) : Dialogue Key Value Unit :=
  if found then count recording else pure ()

def remove (key : Key) (tiers : Tiers Key Value) : Dialogue Key Value (Option Value × Tiers Key Value) := do
  count .removeCall
  let (slot, pinned) := tiers.pinned.unpin key
  let (primaryValue, primary) := tiers.primary.remove key
  let moment ← askMoment
  let (softValue, soft) := tiers.soft.take moment key
  let removed := (slot.join.or primaryValue).or softValue
  countIf removed.isSome .removeFound
  pure (removed, { pinned, primary, soft })

def pin (key : Key) (tiers : Tiers Key Value) : Dialogue Key Value (Bool × Tiers Key Value) := do
  count .pinCall
  match tiers.pinned.slot? key with
  | some slot => do
      countIf slot.isSome .pinFound
      pure (slot.isSome, tiers)
  | none =>
      match tiers.primary.remove key with
      | (some value, primary) => do
          count .pinFound
          pure (true, { tiers with primary, pinned := tiers.pinned.pin key (some value) })
      | (none, _) => do
          let moment ← askMoment
          let (value, soft) := tiers.soft.take moment key
          countIf value.isSome .pinFound
          pure (value.isSome, { tiers with soft, pinned := tiers.pinned.pin key value })

def unpin (key : Key) (tiers : Tiers Key Value) : Dialogue Key Value (Bool × Tiers Key Value) := do
  count .unpinCall
  match tiers.pinned.unpin key with
  | (none, _) => pure (false, tiers)
  | (some none, pinned) => do
      count .unpinFound
      pure (true, { tiers with pinned })
  | (some (some value), pinned) => do
      let instant ← askInstant
      let (_, tiers) ← insertPrimary instant key value { tiers with pinned }
      count .unpinFound
      pure (true, tiers)

def putEntry (replaceExisting : Bool) (entry : Entry Key Value) (tiers : Tiers Key Value) :
    Dialogue Key Value (Tiers Key Value) := do
  let moment ← askMoment
  if !replaceExisting && tiers.containsKey moment entry.key then pure tiers
  else if entry.tier = .pinned then do
    let (_, tiers) ← pin entry.key tiers
    let (_, tiers) ← put entry.key entry.value tiers
    pure tiers
  else do
    let (_, tiers) ← put entry.key entry.value tiers
    pure tiers

def putAll (replaceExisting : Bool) : List (Entry Key Value) → Tiers Key Value → Dialogue Key Value (Tiers Key Value)
  | [], tiers => pure tiers
  | entry :: rest, tiers => putEntry replaceExisting entry tiers >>= putAll replaceExisting rest

def clear (tiers : Tiers Key Value) : Dialogue Key Value (Tiers Key Value) := do
  count .clear
  pure ⟨.empty, tiers.primary.clear, tiers.soft.clear⟩

def setCacheSize (capacity : Nat) (tiers : Tiers Key Value) : Dialogue Key Value (Tiers Key Value) := do
  let (surplus, primary) := tiers.primary.setCapacity capacity
  let instant ← askInstant
  demoteAll instant surplus { tiers with primary }

def setSoftReferenceSize (capacity : Nat) (tiers : Tiers Key Value) : Dialogue Key Value (Tiers Key Value) := do
  let (dropped, soft) := tiers.soft.setCapacity capacity
  dropped.forM announceSoftOverflow
  pure { tiers with soft }

def purgeSoft (tiers : Tiers Key Value) : Dialogue Key Value (Nat × Tiers Key Value) := do
  let moment ← askMoment
  let (purged, soft) := tiers.soft.purge moment
  if purged.isEmpty then pure (0, { tiers with soft })
  else do
    count (.softReclaimed purged.length.toUInt64)
    purged.forM fun entry => tell (.softReclaimed entry.1)
    pure (purged.length, { tiers with soft })

/-! ### What the dialogues come to -/

/-- What comes of a dialogue about tiers before a host, in the form of an operation. -/
def perform (dialogue : Dialogue Key Value (Result × Tiers Key Value)) (host : Host World Key Value) (world : World) :
    Result × Tiers Key Value × World :=
  let outcome := dialogue.run host world
  (outcome.1.1, outcome.1.2, outcome.2)

/-- A dialogue whose result is wrapped. -/
def wrapping (wrap : Result → Other) (dialogue : Dialogue Key Value (Result × Tiers Key Value)) :
    Dialogue Key Value (Other × Tiers Key Value) := do
  let outcome ← dialogue
  pure (outcome.map wrap id)

/-- A dialogue that leaves tiers, and a result that is known. -/
def resulting (result : Result) (dialogue : Dialogue Key Value (Tiers Key Value)) :
    Dialogue Key Value (Result × Tiers Key Value) := do
  let tiers ← dialogue
  pure (result, tiers)

/-- One dialogue after another, of which the first only leaves tiers to the second. -/
def followedBy (dialogue : Dialogue Key Value (Result × Tiers Key Value))
    (rest : Tiers Key Value → Dialogue Key Value (Other × Tiers Key Value)) :
    Dialogue Key Value (Other × Tiers Key Value) := do
  let (_, tiers) ← dialogue
  rest tiers

variable (host : Host World Key Value) (key : Key) (value : Value) (tiers : Tiers Key Value) (world : World)

theorem perform_followedBy (dialogue : Dialogue Key Value (Result × Tiers Key Value))
    (rest : Tiers Key Value → Dialogue Key Value (Other × Tiers Key Value)) :
    (dialogue.followedBy rest).perform host world =
      (rest (dialogue.perform host world).2.1).perform host (dialogue.perform host world).2.2 := by
  simp only [followedBy, perform, run_bind]

theorem perform_wrapping (wrap : Result → Other) (dialogue : Dialogue Key Value (Result × Tiers Key Value)) :
    (dialogue.wrapping wrap).perform host world = (dialogue.perform host world).map wrap id := by
  simp only [wrapping, perform, run_bind, run_pure]
  rfl

theorem perform_resulting (result : Result) (dialogue : Dialogue Key Value (Tiers Key Value)) :
    (dialogue.resulting result).perform host world = (result, dialogue.run host world) := by
  simp only [resulting, perform, run_bind, run_pure]

theorem run_demote (instant : Instant) (entry : Key × Value) :
    (demote instant entry tiers).run host world = Tiers.demote host instant entry tiers world := by
  simp only [demote, Tiers.demote, run_bind, run_count, run_tell]
  split
  · simp only [run_bind, run_askEpoch]
    cases tiers.soft.accept _ entry.1 entry.2 with
    | mk dropped soft => cases dropped <;> rfl
  · rfl

theorem run_demoteAll (instant : Instant) (entries : List (Key × Value)) :
    (demoteAll instant entries tiers).run host world = Tiers.demoteAll host instant entries tiers world := by
  induction entries generalizing tiers world with
  | nil => rfl
  | cons entry rest ih =>
      rw [demoteAll, run_bind, run_demote, ih]
      rfl

theorem run_insertPrimary (instant : Instant) :
    (insertPrimary instant key value tiers).run host world =
      let outcome := Tiers.insertPrimary host instant key value tiers world
      ((outcome.1, outcome.2.1), outcome.2.2) := by
  simp only [insertPrimary, Tiers.insertPrimary]
  cases tiers.primary.insert key value with
  | mk insertion primary =>
      dsimp only
      cases insertion.overflow with
      | none => simp only [run_pure]
      | some entry => simp only [run_bind, run_demote, run_pure]

theorem perform_insertPrimary (instant : Instant) :
    (insertPrimary instant key value tiers).perform host world =
      Tiers.insertPrimary host instant key value tiers world := by
  rw [perform, run_insertPrimary]

theorem perform_get : (get key tiers).perform host world = Tiers.get host key tiers world := by
  simp only [perform, get, Tiers.get, run_bind, run_count]
  cases tiers.pinned.slot? key with
  | some slot => cases slot <;> simp only [run_bind, run_count, run_pure]
  | none =>
      dsimp only
      cases tiers.primary.get key with
      | mk found primary =>
          cases found with
          | some value => simp only [run_bind, run_count, run_pure]
          | none =>
              simp only [run_bind, run_askMoment]
              cases tiers.soft.take (host.moment (host.record .getCall world)) key with
              | mk taken soft => cases taken <;> simp only [run_bind, run_count, run_insertPrimary, run_pure]

theorem perform_put : (put key value tiers).perform host world = Tiers.put host key value tiers world := by
  simp only [perform, put, Tiers.put, run_bind, run_count]
  cases tiers.pinned.replace? key value with
  | some replaced => simp only [run_bind, run_count, run_pure]
  | none => simp only [run_bind, run_askMoment, run_insertPrimary, run_count, run_pure]

omit [DecidableEq Key] in
@[simp] theorem run_countIf (found : Bool) (recording : Metrics.Recording) :
    (countIf found recording : Dialogue Key Value Unit).run host world =
      ((), if found then host.record recording world else world) := by
  cases found <;> rfl

theorem perform_remove : (remove key tiers).perform host world = Tiers.remove host key tiers world := by
  simp only [perform, remove, Tiers.remove, run_bind, run_count, run_askMoment, run_countIf, run_pure]

theorem perform_pin : (pin key tiers).perform host world = Tiers.pin host key tiers world := by
  simp only [perform, pin, Tiers.pin, run_bind, run_count]
  cases tiers.pinned.slot? key with
  | some slot => simp only [run_bind, run_countIf, run_pure]
  | none =>
      dsimp only
      cases tiers.primary.remove key with
      | mk removed primary =>
          cases removed with
          | some value => simp only [run_bind, run_count, run_pure, ↓reduceIte]
          | none => simp only [run_bind, run_askMoment, run_countIf, run_pure]

theorem perform_unpin : (unpin key tiers).perform host world = Tiers.unpin host key tiers world := by
  simp only [perform, unpin, Tiers.unpin, run_bind, run_count]
  cases tiers.pinned.unpin key with
  | mk released pinned =>
      cases released with
      | none => simp only [run_pure]
      | some slot => cases slot <;> simp only [run_bind, run_count, run_askInstant, run_insertPrimary, run_pure]

theorem run_putEntry (replaceExisting : Bool) (entry : Entry Key Value) :
    (putEntry replaceExisting entry tiers).run host world = Tiers.putEntry host replaceExisting entry tiers world := by
  rw [putEntry, run_bind, run_askMoment, Tiers.putEntry]
  dsimp only
  split
  · rfl
  · split
    · simp only [run_bind, run_pure, ← perform_pin, ← perform_put, perform]
    · simp only [run_bind, run_pure, ← perform_put, perform]

theorem run_putAll (replaceExisting : Bool) (entries : List (Entry Key Value)) :
    (putAll replaceExisting entries tiers).run host world =
      Tiers.putAll host replaceExisting entries tiers world := by
  induction entries generalizing tiers world with
  | nil => rfl
  | cons entry rest ih =>
      rw [putAll, run_bind, run_putEntry, ih]
      rfl

theorem run_setCacheSize (capacity : Nat) :
    (setCacheSize capacity tiers).run host world = Tiers.setCacheSize host capacity tiers world := by
  simp only [setCacheSize, run_bind, run_askInstant, run_demoteAll]
  rfl

omit [DecidableEq Key] in
theorem run_forM {Item : Type} (speak : Item → Dialogue Key Value Unit) (items : List Item) :
    (items.forM speak).run host world = ((), items.foldl (fun world item => ((speak item).run host world).2) world) := by
  induction items generalizing world with
  | nil => rfl
  | cons item rest ih =>
      rw [List.forM, run_bind, ih]
      rfl

theorem run_setSoftReferenceSize (capacity : Nat) :
    (setSoftReferenceSize capacity tiers).run host world = Tiers.setSoftReferenceSize host capacity tiers world := by
  simp only [setSoftReferenceSize, run_bind, run_forM]
  rfl

theorem perform_purgeSoft : (purgeSoft tiers).perform host world = Tiers.purgeSoft host tiers world := by
  rw [perform, purgeSoft, run_bind, run_askMoment, Tiers.purgeSoft]
  dsimp only
  split
  · rfl
  · simp only [run_bind, run_count, run_forM]
    rfl

end Dialogue

end LayeredCache
