import OfflineProtocol.MeshTypes
import OfflineProtocol.RelayGovernor
import Mathlib.Data.Finset.Card

/-! The custody store: frames held for other devices, with per-depositor and
global budgets. Byte counts are sizes of data held in memory, so their sums
never reach the width of the machine word and are plain additions here. -/
namespace OfflineProtocol
open KeyedTable

def custodyClassData : String := "data"

def encryptedStart : String := "__MLS_ENC__"

def maxCustodyNeighboursPerHold : ℕ := 64

def custodyMinBytesPerDepositor : ℕ := 64 * 1024

structure CustodyConfig where
  enabled : Bool
  holdMs : ℕ
  maxEntriesPerDepositor : ℕ
  maxBytesPerDepositor : ℕ
  maxEntries : ℕ
  maxBytes : ℕ
  strangerMaxEntries : ℕ
  strangerMaxBytes : ℕ
  overflowPolicy : OverflowPolicy
deriving DecidableEq

/-- The part of the configuration check that reads the custody section, against
the lifetime of an outbox entry. The errors are the source's, in its order. -/
inductive CustodyConfigError
  | holdZero
  | holdOutlivesOutbox (holdMs outboxLifetimeMs : ℕ)
  | sessionTierZero
  | sessionBytesTooSmall (bytes : ℕ)
  | globalBelowSession
  | strangerHalfOff
  | strangerBytesTooSmall (bytes : ℕ)
  | globalBelowStranger
deriving DecidableEq

def CustodyConfigError.text : CustodyConfigError → String
  | .holdZero => "custody.hold_ms must be greater than 0"
  | .holdOutlivesOutbox holdMs outboxLifetimeMs =>
    "custody.hold_ms (" ++ toString holdMs ++ "ms) must be strictly shorter than " ++
      "retry.outbox_max_lifetime_ms (" ++ toString outboxLifetimeMs ++
      "ms): a hold that outlives the outbox " ++
      "delivers frames whose sender has already reported them failed"
  | .sessionTierZero =>
    "custody.max_entries_per_depositor and custody.max_bytes_per_depositor must " ++
      "both be greater than 0 while custody is enabled: zero is not a smaller " ++
      "quota, it is a store that refuses every deposit"
  | .sessionBytesTooSmall bytes =>
    "custody.max_bytes_per_depositor (" ++ toString bytes ++
      ") must admit one replication frame at its ceiling (" ++
      toString custodyMinBytesPerDepositor ++
      " bytes), or every deposit is refused as depositor_full"
  | .globalBelowSession =>
    "custody.max_entries and custody.max_bytes must each be at least their " ++
      "per-depositor sibling, or the per-depositor dial can never be reached"
  | .strangerHalfOff =>
    "custody.stranger_max_entries and custody.stranger_max_bytes must be both " ++
      "zero (no stranger deposits) or both greater than 0"
  | .strangerBytesTooSmall bytes =>
    "custody.stranger_max_bytes (" ++ toString bytes ++
      ") must admit one replication frame at its ceiling (" ++
      toString custodyMinBytesPerDepositor ++
      " bytes), or every stranger deposit is refused as depositor_full"
  | .globalBelowStranger =>
    "custody.max_entries and custody.max_bytes must each be at least the " ++
      "stranger tier's dial, or that tier can never be reached"

def validateCustody (custody : CustodyConfig) (outboxLifetimeMs : ℕ) :
    Except CustodyConfigError Unit :=
  let strangerOn := 0 < custody.strangerMaxEntries ∨ 0 < custody.strangerMaxBytes
  if custody.holdMs = 0 then .error .holdZero
  else if !custody.enabled then .ok ()
  else if outboxLifetimeMs ≤ custody.holdMs then
    .error (.holdOutlivesOutbox custody.holdMs outboxLifetimeMs)
  else if custody.maxEntriesPerDepositor = 0 ∨ custody.maxBytesPerDepositor = 0 then
    .error .sessionTierZero
  else if custody.maxBytesPerDepositor < custodyMinBytesPerDepositor then
    .error (.sessionBytesTooSmall custody.maxBytesPerDepositor)
  else if custody.maxEntries < custody.maxEntriesPerDepositor ∨
      custody.maxBytes < custody.maxBytesPerDepositor then .error .globalBelowSession
  else if strangerOn ∧ (custody.strangerMaxEntries = 0 ∨ custody.strangerMaxBytes = 0) then
    .error .strangerHalfOff
  else if strangerOn ∧ custody.strangerMaxBytes < custodyMinBytesPerDepositor then
    .error (.strangerBytesTooSmall custody.strangerMaxBytes)
  else if custody.maxEntries < custody.strangerMaxEntries ∨
      custody.maxBytes < custody.strangerMaxBytes then .error .globalBelowStranger
  else .ok ()

inductive CustodyRefusal
  | disabled
  | noRequest
  | unknownClass
  | notSealed
  | unprovenPeer
  | notDepositor
  | duplicate
  | strangerRefused
  | battery
  | depositorFull
  | storeFull
deriving DecidableEq

structure CustodyCandidate where
  message : Message
  request : Option String
  arrivalPeer : Option PeerId
  sessionTier : Bool
  batteryOk : Bool
  nowMs : ℤ

structure Accepted where
  id : MessageId
  depositor : PeerId
  frameClass : String
  evicted : List MessageId
deriving DecidableEq

def frameFootprint (m : Message) : ℕ := m.footprint

inductive Tier
  | session
  | stranger
deriving DecidableEq

structure Admitted where
  tier : Tier
  depositor : PeerId
  token : String

structure Usage where
  entries : ℕ
  bytes : ℕ
deriving DecidableEq

def Usage.zero : Usage := ⟨0, 0⟩

structure CustodyStore where
  config : CustodyConfig
  entries : Table MessageId HeldFrame
  order : List MessageId
  perDepositor : Table PeerId Usage
  total : Usage

namespace CustodyStore
variable (s : CustodyStore) (held : HeldFrame) (c : CustodyCandidate) (id : MessageId)
  (peer : PeerId) (depositor : PeerId)

def new (config : CustodyConfig) : CustodyStore where
  config := config
  entries := ∅
  order := []
  perDepositor := ∅
  total := .zero

def check : Except CustodyRefusal Admitted :=
  match c.request with
  | none => .error .noRequest
  | some token =>
    if !s.config.enabled then .error .disabled
    else if token ≠ custodyClassData then .error .unknownClass
    else if !c.message.contentStartsWith encryptedStart then .error .notSealed
    else
      match c.arrivalPeer with
      | none => .error .unprovenPeer
      | some peer =>
        if c.message.sender ≠ peer then .error .notDepositor
        else if c.message.id ∈ s.entries then .error .duplicate
        else
          let tier := if c.sessionTier then Tier.session else Tier.stranger
          if tier = .stranger ∧ (s.config.strangerMaxEntries = 0 ∨ s.config.strangerMaxBytes = 0)
          then .error .strangerRefused
          else if !c.batteryOk then .error .battery
          else .ok ⟨tier, peer, token⟩

def usageOf : Usage :=
  (get s.perDepositor depositor).getD .zero

def fitsDepositor (bytes maxEntries maxBytes : ℕ) : Bool :=
  decide ((s.usageOf depositor).entries < maxEntries) &&
    decide ((s.usageOf depositor).bytes + bytes ≤ maxBytes)

def fitsStore (bytes : ℕ) : Bool :=
  decide (s.total.entries < s.config.maxEntries) &&
    decide (s.total.bytes + bytes ≤ s.config.maxBytes)

def oldest : Option MessageId :=
  s.order.find? fun id => decide (id ∈ s.entries)

def oldestOf : Option MessageId :=
  s.order.find? fun id =>
    match get s.entries id with
    | some held => decide (held.depositor = depositor)
    | none => false

def insert : CustodyStore :=
  let usage := s.usageOf held.depositor
  { s with
    perDepositor := s.perDepositor.insert held.depositor
      ⟨usage.entries + 1, usage.bytes + held.bytes⟩
    total := ⟨s.total.entries + 1, s.total.bytes + held.bytes⟩
    order := s.order ++ [held.message.id]
    entries := s.entries.insert held.message.id held }

def removeInner : CustodyStore × Option HeldFrame :=
  match get s.entries id with
  | none => (s, none)
  | some held =>
    let perDepositor :=
      match get s.perDepositor held.depositor with
      | none => s.perDepositor
      | some usage =>
        let left : Usage := ⟨usage.entries - 1, usage.bytes - held.bytes⟩
        if left.entries = 0 then s.perDepositor.erase held.depositor
        else s.perDepositor.insert held.depositor left
    ({ s with
        entries := s.entries.erase id
        perDepositor := perDepositor
        total := ⟨s.total.entries - 1, s.total.bytes - held.bytes⟩
        order := s.order.filter (· ≠ id) }, some held)

def removeAll (ids : List MessageId) : CustodyStore :=
  ids.foldl (fun s id => (s.removeInner id).1) s

/-- The two budget loops of `judge`: until the frame fits, evict the oldest
frame of the kind in question, or refuse. Each round takes an id out of the
order, whose length bounds the rounds. -/
def evictLoop (fits : CustodyStore → Bool) (victimOf : CustodyStore → Option MessageId) :
    ℕ → CustodyStore → CustodyStore × List MessageId × Bool
  | fuel, s =>
    if fits s then (s, [], true)
    else
      match s.config.overflowPolicy with
      | .dropNewest => (s, [], false)
      | .dropOldest =>
        match victimOf s, fuel with
        | some victim, fuel + 1 =>
          let r := evictLoop fits victimOf fuel (s.removeInner victim).1
          (r.1, victim :: r.2.1, r.2.2)
        | _, _ => (s, [], false)

def tierQuota (config : CustodyConfig) : Tier → ℕ × ℕ
  | .session => (config.maxEntriesPerDepositor, config.maxBytesPerDepositor)
  | .stranger => (config.strangerMaxEntries, config.strangerMaxBytes)

def depositFrame (admitted : Admitted) : HeldFrame where
  message := c.message
  depositor := admitted.depositor
  acceptedAtMs := c.nowMs
  frameClass := admitted.token
  bytes := frameFootprint c.message
  tried := ∅
  inFlight := none

def judge :
    CustodyStore × Except CustodyRefusal Accepted :=
  match s.check c with
  | .error refusal => (s, .error refusal)
  | .ok admitted =>
    let bytes := frameFootprint c.message
    let quota := tierQuota s.config admitted.tier
    if quota.2 < bytes then (s, .error .depositorFull)
    else
      let own := evictLoop (fun s => s.fitsDepositor admitted.depositor bytes quota.1 quota.2)
        (fun s => s.oldestOf admitted.depositor) s.order.length s
      if !own.2.2 then (own.1, .error .depositorFull)
      else if own.1.config.maxBytes < bytes then (own.1, .error .storeFull)
      else
        let all := evictLoop (fun s => s.fitsStore bytes) oldest own.1.order.length own.1
        if !all.2.2 then (all.1, .error .storeFull)
        else
          (all.1.insert (depositFrame c admitted),
            .ok
              { id := c.message.id
                depositor := admitted.depositor
                frameClass := admitted.token
                evicted := own.2.1 ++ all.2.1 })

def admitRestored (message : Message) (depositor : PeerId)
    (acceptedAtMs : ℤ) (frameClass : String) : CustodyStore × Bool :=
  if message.id ∈ s.entries then (s, false)
  else
    let bytes := frameFootprint message
    let maxEntries := max s.config.maxEntriesPerDepositor s.config.strangerMaxEntries
    let maxBytes := max s.config.maxBytesPerDepositor s.config.strangerMaxBytes
    if !s.fitsDepositor depositor bytes maxEntries maxBytes || !s.fitsStore bytes then (s, false)
    else
      (s.insert
        { message := message
          depositor := depositor
          acceptedAtMs := acceptedAtMs
          frameClass := frameClass
          bytes := bytes
          tried := ∅
          inFlight := none }, true)

def saturatingSub (a b : ℤ) : ℤ := max (-(2 ^ 63)) (min (2 ^ 63 - 1) (a - b))

def expire (nowMs : ℤ) (holdMs : ℕ) : CustodyStore × List MessageId :=
  let hold : ℤ := min (holdMs : ℤ) (2 ^ 63 - 1)
  let expired := ((values s.entries).filter fun held =>
    decide (hold < saturatingSub nowMs held.acceptedAtMs)).map (·.message.id)
  (s.removeAll expired, expired)

def eligible : Bool :=
  decide (held.depositor ≠ peer) && held.inFlight.isNone &&
    (decide (held.message.recipient = peer) ||
      (decide (peer ∉ held.tried) && decide (held.tried.card < maxCustodyNeighboursPerHold)))

def candidatesFor : List MessageId :=
  ((s.order.filterMap fun id => get s.entries id).filter (eligible · peer)).map (·.message.id)

def markQueuedFrame (held : HeldFrame) : HeldFrame :=
  { held with tried := Insert.insert peer held.tried, inFlight := some peer }

def returnedFrame : HeldFrame :=
  match held.inFlight with
  | some peer => { held with inFlight := none, tried := held.tried.erase peer }
  | none => held

def reOriginatedFrame : HeldFrame := { held with inFlight := none }

def markQueued : CustodyStore :=
  { s with entries := modify s.entries id (markQueuedFrame peer) }

def returned : CustodyStore :=
  { s with entries := modify s.entries id returnedFrame }

def recordReOriginated : CustodyStore :=
  { s with entries := modify s.entries id reOriginatedFrame }

def recordDelivered : CustodyStore × Option HeldFrame :=
  s.removeInner id

def erase : CustodyStore × List MessageId :=
  (new s.config, s.entries.keys)

end CustodyStore

end OfflineProtocol
