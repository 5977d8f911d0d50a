import OfflineProtocol.EventTrace
import OfflineProtocol.Message
import OfflineProtocol.RelayGovernor
import OfflineProtocol.PreSessionQueue

/-! The send engine: the outbox, the retry queue, the pending acknowledgements and the line of
messages held for each peer's send window. What the carriers, the deduplicator and the hash
maps answer is part of each operation; of media chunks only the places they take appear. -/
namespace OfflineProtocol
open KeyedTable

def maxOutboxEntries : ℕ := 500

def outboxAbsoluteLifetimeFactor : ℕ := 4

def flushBatchLimit : ℕ := 20

def peerSendWindow : ℕ := 16

def queuedAckGraceMaxMs : ℕ := 60000

def redeliveryWindowMs : ℕ := 604800000

def welcomeNoCarrierRetrySecs : ℕ := 15

def welcomeUnreachableRetryCapSecs : ℕ := 600

def pendingConnectionRequestTtlMs : ℕ := 1800000

def meshTransports : List TransportType := [.wifiDirect, .ble]

def gatewayCarriers : List TransportType := [.internet, .reticulum]

def asI64 (n : ℕ) : ℤ := (BitVec.ofNat 64 n).toInt

inductive FrameKind
  /-- A key package, a Welcome, a confirmation probe or its answer. -/
  | sessionControl
  /-- Content sealed for the recipient. -/
  | sealed
  | plain
deriving DecidableEq

structure OutboundMessage where
  id : MessageId
  recipient : PeerId
  priority : MessagePriority
  requiresAck : Bool
  kind : FrameKind
deriving DecidableEq

structure OutboxEntry where
  message : OutboundMessage
  attemptCount : ℕ
  firstSentAt : ℕ
  lastSentAt : ℕ
  lastTransport : Option TransportType
  relayPushed : Bool
deriving DecidableEq

structure RetryEntry where
  message : OutboundMessage
  retryCount : ℕ
  addedAt : ℕ
  retryAt : ℕ
deriving DecidableEq

inductive AckStatus
  | pending
  | timedOut
deriving DecidableEq

structure PendingAck where
  sentAt : ℕ
  timeoutMs : ℕ
  status : AckStatus
  retryCount : ℕ
  extendedMs : ℕ
deriving DecidableEq

structure PendingConnectionRequest where
  recipient : PeerId
  sentAt : ℕ
deriving DecidableEq

inductive OutboxEvent
  /-- The frame was put to the carriers; `via` is the one that took it. -/
  | transmitted (id : MessageId) (via : Option TransportType)
  /-- The frame was offered to the mesh neighbours. -/
  | offered (id : MessageId)
  | messageSent (id : MessageId) (recipient : PeerId)
  | messageDeferred (id : MessageId) (recipient : PeerId) (reason : String) (nextRetryAt : Option ℕ)
  | messageRetrying (id : MessageId) (recipient : PeerId) (retryCount : ℕ) (retryAt : ℕ)
  | messageUndeliverable (id : MessageId) (recipient : PeerId) (reason : String)
  | messageDelivered (id : MessageId) (latencyMs hopCount : ℕ) (transport : TransportType)
  | messageFailed (id : MessageId) (reason : String) (retryCount : ℕ)
  | connectionRequestUndeliverable (recipient : PeerId) (id : MessageId) (reason : String)
deriving DecidableEq

structure OutboxConfig where
  maxRetries : ℕ
  initialDelayMs : ℕ
  maxDelayMs : ℕ
  /-- The wait before each retry: the initial delay times a power of the backoff
  multiplier, in floating point, at most the maximum delay. -/
  delayForRetry : ℕ → ℕ
  outboxMaxLifetimeMs : ℕ
  defaultTimeoutMs : ℕ
  maxPendingAcks : ℕ

def OutboxConfig.default : OutboxConfig where
  maxRetries := 10
  initialDelayMs := 1000
  maxDelayMs := 300000
  delayForRetry n := min (1000 * 2 ^ n) 300000
  outboxMaxLifetimeMs := 604800000
  defaultTimeoutMs := 10000
  maxPendingAcks := 1000

structure CarrierAnswer where
  /-- The carriers that take the frame. A mesh carrier takes it only over a live
  link to the recipient. -/
  accepting : List TransportType
  selection : List TransportType
  reachable : Bool
  mediaAcks : ℕ
  failureToken : String

structure SendHost where
  now : ℕ
  answers : MessageId → CarrierAnswer
  order : List MessageId
  peerOrder : List PeerId
  availableTransports : List TransportType
  queuedMessageIds : List MessageId
  batchShare : ℕ

structure SendEngine where
  outbox : Table MessageId OutboxEntry
  retryQueue : Table MessageId RetryEntry
  pendingAcks : Table MessageId PendingAck
  windowHeld : Table PeerId (List MessageId)
  dmUnreachableParks : Table PeerId ℕ
  undecryptableResent : List MessageId
  pendingConnectionRequests : Table MessageId PendingConnectionRequest
  welcomeIds : List MessageId
  links : List (TransportType × PeerId)
  dispatched : List MessageId
  log : List OutboxEvent

namespace SendEngine
variable (config : OutboxConfig) (now : ℕ) (order : List MessageId) (host : SendHost)
  (id : MessageId) (newcomer : Option OutboundMessage) (peer : PeerId) (m : OutboundMessage)
  (a : CarrierAnswer) (e : OutboxEntry) (ack : AckFrame) (retryCount : ℕ) (attemptCount : ℕ)
  (stored : Bool) (forced : Option TransportType) (s : SendEngine)

def empty : SendEngine where
  outbox := ∅
  retryQueue := ∅
  pendingAcks := ∅
  windowHeld := ∅
  dmUnreachableParks := ∅
  undecryptableResent := []
  pendingConnectionRequests := ∅
  welcomeIds := []
  links := []
  dispatched := []
  log := []

/-- The engine of a new process: the outbox is read back from storage, and nothing
else is. -/
def restart (restored : Table MessageId OutboxEntry) : SendEngine :=
  { empty with outbox := restored, dispatched := restored.keys }

def emit (e : OutboxEvent) (s : SendEngine) : SendEngine := { s with log := s.log ++ [e] }

def meshTransportFor (peer : PeerId) : Option TransportType :=
  meshTransports.find? fun t => decide ((t, peer) ∈ s.links)

def sendViaTransport (m : OutboundMessage) (a : CarrierAnswer)
    (t : TransportType) : Bool :=
  decide (t ∈ a.accepting) && (decide (t ∉ meshTransports) || decide ((t, m.recipient) ∈ s.links))

def sendSelected (m : OutboundMessage) (a : CarrierAnswer) :
    Option TransportType :=
  a.selection.find? (s.sendViaTransport m a)

def send (m : OutboundMessage) (a : CarrierAnswer) : Option TransportType :=
  match s.meshTransportFor m.recipient with
  | some t => if s.sendViaTransport m a t then some t else s.sendSelected m a
  | none => s.sendSelected m a

def sendForced (m : OutboundMessage) (a : CarrierAnswer) :
    Option TransportType → Option TransportType
  | some t => if s.sendViaTransport m a t then some t else none
  | none => s.send m a

def offerToMesh : SendEngine := s.emit (.offered m.id)

def offerResendToMesh (accepted : Bool)
    (s : SendEngine) : SendEngine :=
  if accepted && a.reachable then s else s.offerToMesh m

def retryRemove : SendEngine :=
  { s with retryQueue := s.retryQueue.erase id }

def enqueueWithDelay (retryCount delayMs : ℕ) (s : SendEngine) :
    SendEngine :=
  if (get s.retryQueue m.id).isSome then s
  else
    { s with
      retryQueue := s.retryQueue.insert m.id
        { message := m, retryCount, addedAt := now, retryAt := now + delayMs } }

def enqueue : SendEngine :=
  s.enqueueWithDelay now m retryCount (config.delayForRetry retryCount)

def nextRetryAt : Option ℕ :=
  if (get s.retryQueue m.id).isSome then none else some (now + config.delayForRetry retryCount)

def runsBefore (a b : MessageId × RetryEntry) : Prop :=
  a.2.retryAt < b.2.retryAt ∨
    (a.2.retryAt = b.2.retryAt ∧
      priorityRank b.2.message.priority ≤ priorityRank a.2.message.priority)

instance : DecidableRel runsBefore := fun _ _ => inferInstanceAs (Decidable (_ ∨ _))

def heapOrder : List (MessageId × RetryEntry) :=
  (visit s.retryQueue order).insertionSort runsBefore

def dequeueReady : Option RetryEntry :=
  match s.heapOrder order with
  | [] => none
  | r :: _ => if r.2.retryAt ≤ now then some r.2 else none

def retryExpired (r : RetryEntry) : Bool :=
  decide (asI64 config.outboxMaxLifetimeMs ≤ (now : ℤ) - r.addedAt)

def isWaitingForAck (id : MessageId) : Bool := (get s.pendingAcks id).isSome

def hasCapacityFor
    (id : MessageId) : Bool :=
  s.isWaitingForAck id || decide (s.pendingAcks.entries.length + a.mediaAcks < config.maxPendingAcks)

def removeAck : SendEngine :=
  { s with pendingAcks := s.pendingAcks.erase id }

/-- Whether the id was registered just now. A full table registers nothing: every
slot is of medium priority, so none gives way. -/
def registersAck (m : OutboundMessage)
    (s : SendEngine) : Bool :=
  m.requiresAck && !s.isWaitingForAck m.id && s.hasCapacityFor config a m.id

def ensureAckRegistration
    (m : OutboundMessage) (s : SendEngine) : SendEngine :=
  if s.registersAck config a m then
    { s with
      pendingAcks := s.pendingAcks.insert m.id
        { sentAt := now, timeoutMs := config.defaultTimeoutMs, status := .pending,
          retryCount := 0, extendedMs := 0 } }
  else s

def incrementRetryCount : SendEngine :=
  { s with
    pendingAcks := modify s.pendingAcks id fun ack =>
      { ack with retryCount := ack.retryCount + 1, sentAt := now, extendedMs := 0,
                 status := .pending } }

def setRetryCount : SendEngine :=
  { s with pendingAcks := modify s.pendingAcks id fun ack => { ack with retryCount } }

def ackTimedOut (ack : PendingAck) : Bool :=
  decide (ack.status = .pending) &&
    decide (asI64 (min (ack.timeoutMs + ack.extendedMs) (2 ^ 64 - 1)) ≤ (now : ℤ) - ack.sentAt)

def extendWhileQueued : Option SendEngine :=
  match get s.pendingAcks id with
  | none => none
  | some ack =>
    if queuedAckGraceMaxMs ≤ now - ack.sentAt then none
    else some { s with
      pendingAcks := s.pendingAcks.insert id
        { ack with extendedMs := now - ack.sentAt, status := .pending } }

def timedOutAckRetention : ℕ :=
  (config.defaultTimeoutMs + config.maxDelayMs) * 2

def pruneOldTimeouts : SendEngine :=
  { s with
    pendingAcks := retain s.pendingAcks fun _ ack =>
      decide (ack.status ≠ .timedOut) || decide (now < ack.sentAt + timedOutAckRetention config) }

def removeOutboxEntry : SendEngine :=
  { s with
    outbox := s.outbox.erase id
    undecryptableResent := s.undecryptableResent.filter (· ≠ id) }

def forgetOutboundMessage : SendEngine :=
  ((s.retryRemove id).removeAck id).removeOutboxEntry id

def reportConnectionRequest (reason : String) (s : SendEngine) :
    SendEngine :=
  match get s.pendingConnectionRequests id with
  | none => s
  | some request =>
    let untracked := { s with pendingConnectionRequests := s.pendingConnectionRequests.erase id }
    if now - request.sentAt ≤ pendingConnectionRequestTtlMs then
      untracked.emit (.connectionRequestUndeliverable request.recipient id reason)
    else untracked

def emitOutboxCapacityFailure :
    SendEngine :=
  (s.emit (.messageFailed id "Outbox capacity exceeded" attemptCount)).reportConnectionRequest now id
    "outbox_capacity_exceeded"

def backlog (recipient : PeerId) : ℕ :=
  (values s.outbox).countP fun e => decide (e.message.recipient = recipient)

def outboxEntryEvictable (id : MessageId) (e : OutboxEntry) : Bool :=
  !(e.message.requiresAck && s.isWaitingForAck id)

def heldLinePosition (id : MessageId) : Option ℕ :=
  (s.windowHeld.entries.filter fun line => (s.meshTransportFor line.1).isSome).findSome?
    fun line => line.2.idxOf? id

def evictionOrderKey (e : OutboxEntry) : ℕ × ℤ :=
  match s.heldLinePosition e.message.id with
  | some place => (0, -(place : ℤ))
  | none => (1, (e.firstSentAt : ℤ))

def keyBefore (a b : ℕ × ℤ) : Prop := a.1 < b.1 ∨ (a.1 = b.1 ∧ a.2 < b.2)

instance : DecidableRel keyBefore := fun _ _ => inferInstanceAs (Decidable (_ ∨ _))

def evictedBefore (left right : MessageId × OutboxEntry) : Prop :=
  s.backlog right.2.message.recipient < s.backlog left.2.message.recipient ∨
    (s.backlog left.2.message.recipient = s.backlog right.2.message.recipient ∧
      (keyBefore (s.evictionOrderKey left.2) (s.evictionOrderKey right.2) ∨
        (s.evictionOrderKey left.2 = s.evictionOrderKey right.2 ∧
          ¬right.2.message.id < left.2.message.id)))

instance (s : SendEngine) : DecidableRel s.evictedBefore :=
  fun _ _ => inferInstanceAs (Decidable (_ ∨ _))

def heavier (newcomer : Option OutboundMessage) (e : OutboxEntry) : Bool :=
  match newcomer with
  | some m => decide (e.message.recipient ≠ m.recipient) &&
      decide (s.backlog m.recipient < s.backlog e.message.recipient)
  | none => true

def victim :
    Option (MessageId × OutboxEntry) :=
  (((visit s.outbox order).filter fun e =>
    s.heavier newcomer e.2 && s.outboxEntryEvictable e.1 e.2).insertionSort s.evictedBefore).head?

def makeOutboxRoom :
    SendEngine × Bool :=
  match s.victim host.order newcomer with
  | none => (s, false)
  | some (id, e) =>
    ((s.forgetOutboundMessage id).emitOutboxCapacityFailure host.now id e.attemptCount, true)

def roomFor : SendEngine :=
  if (get s.outbox m.id).isNone && decide (maxOutboxEntries ≤ s.outbox.entries.length) then
    (s.makeOutboxRoom host none).1
  else s

def ensureOutboxEntry : SendEngine :=
  if !m.requiresAck || (get s.outbox m.id).isSome then s
  else
    let s := s.roomFor host m
    { s with
      outbox := s.outbox.insert m.id
        { message := m, attemptCount := 0, firstSentAt := host.now, lastSentAt := host.now,
          lastTransport := none, relayPushed := false } }

def markedEntry (via : Option TransportType) (attempt : ℕ)
    (old : Option OutboxEntry) : OutboxEntry where
  message := m
  attemptCount := attempt
  firstSentAt :=
    match old with
    | some e => if e.attemptCount = 0 then host.now else e.firstSentAt
    | none => host.now
  lastSentAt := host.now
  lastTransport := via
  relayPushed := (old.map (·.relayPushed)).getD false

def markMessageSent (via : Option TransportType)
    (attempt : ℕ) (s : SendEngine) : SendEngine :=
  if !m.requiresAck then s
  else
    let s := s.roomFor host m
    { s with outbox := s.outbox.insert m.id (markedEntry host m via attempt (get s.outbox m.id)) }

def admitAppMessage : SendEngine × Bool :=
  if !m.requiresAck || (get s.outbox m.id).isSome ||
      decide (s.outbox.entries.length < maxOutboxEntries) then (s, true)
  else s.makeOutboxRoom host (some m)

def overMesh (t : Option TransportType) : Bool :=
  match t with
  | some .ble => true
  | some .wifiDirect => true
  | _ => false

def inFlightTo : Bool :=
  decide (0 < e.attemptCount) && decide (e.message.recipient = peer) && overMesh e.lastTransport

def meshFramesInFlightTo (peer : PeerId) : ℕ :=
  (values s.outbox).countP (inFlightTo peer)

def isSessionControlFrame : Bool := decide (m.kind = .sessionControl)

def peerWindowGoverns (m : OutboundMessage) : Bool :=
  m.requiresAck && !isSessionControlFrame m && (s.meshTransportFor m.recipient).isSome

def peerWindowAdmits (m : OutboundMessage) : Bool :=
  !s.peerWindowGoverns m ||
    ((get s.outbox m.id).any fun e => decide (0 < e.attemptCount)) ||
    decide (s.meshFramesInFlightTo m.recipient < peerSendWindow)

def heldFor (peer : PeerId) : List MessageId := (get s.windowHeld peer).getD []

def holdForPeerWindow : SendEngine :=
  let s := (s.ensureOutboxEntry host m).retryRemove m.id
  let held := s.heldFor m.recipient
  { s with
    windowHeld := s.windowHeld.insert m.recipient (if m.id ∈ held then held else held ++ [m.id]) }

def deferForAckCapacity : SendEngine :=
  (s.ensureOutboxEntry host m).enqueue config host.now m 0

def handleSendSuccess
    (via : TransportType) (s : SendEngine) : SendEngine :=
  let a := host.answers m.id
  let s := (s.markMessageSent host m (some via) 1).ensureAckRegistration config host.now a m
  if a.reachable then s else s.offerToMesh m

def handleSendFailure : SendEngine :=
  ((s.ensureOutboxEntry host m).offerToMesh m).enqueue config host.now m 0

def transmitFirst : SendEngine :=
  match s.sendForced m (host.answers m.id) forced with
  | some via => (s.emit (.transmitted m.id (some via))).handleSendSuccess config host m via
  | none => (s.emit (.transmitted m.id none)).handleSendFailure config host m

def reportFirst (s before : SendEngine) : SendEngine :=
  let a := host.answers m.id
  if (before.sendForced m a forced).isSome then s.emit (.messageSent m.id m.recipient)
  else s.emit (.messageDeferred m.id m.recipient a.failureToken (before.nextRetryAt config host.now m 0))

def lacksAckCapacity : Bool :=
  m.requiresAck && !s.hasCapacityFor config (host.answers m.id) m.id

def waitsForPeerWindow (m : OutboundMessage) : Bool :=
  s.peerWindowGoverns m && (!(s.heldFor m.recipient).isEmpty || !s.peerWindowAdmits m)

def dispatchAppMessage : SendEngine :=
  let admission := { s with dispatched := m.id :: s.dispatched }.admitAppMessage host m
  let s := admission.1
  if !admission.2 then s.emitOutboxCapacityFailure host.now m.id 0
  else if s.lacksAckCapacity config host m then
    (s.deferForAckCapacity config host m).emit (.messageDeferred m.id m.recipient "ack_capacity"
      (some ((s.nextRetryAt config host.now m 0).getD host.now)))
  else if s.waitsForPeerWindow m then
    (s.holdForPeerWindow host m).emit (.messageDeferred m.id m.recipient "peer_window" none)
  else (s.transmitFirst config host m forced).reportFirst config host m forced s

def dispatchPreparedMessage :
    SendEngine → SendEngine :=
  dispatchAppMessage config host m none

def dispatchPreparedMessageVia
    (transport : TransportType) : SendEngine → SendEngine :=
  dispatchAppMessage config host m (some transport)

def dispatchInternalMessage : SendEngine :=
  let s := { s with dispatched := m.id :: s.dispatched }
  if s.lacksAckCapacity config host m then s.deferForAckCapacity config host m
  else s.transmitFirst config host m none

def sendSyncFrameToPeer : SendEngine :=
  { s with dispatched := m.id :: s.dispatched }.transmitFirst config host m none

def tryFlushSendVia (override : Option TransportType) (s : SendEngine) :
    SendEngine × Option TransportType :=
  let a := host.answers m.id
  if s.lacksAckCapacity config host m then
    ((s.ensureOutboxEntry host m).enqueue config host.now m attemptCount, none)
  else if !s.peerWindowAdmits m then (s.holdForPeerWindow host m, none)
  else
    let s := s.ensureOutboxEntry host m
    match s.sendForced m a override with
    | some via =>
      let sent := (s.emit (.transmitted m.id (some via))).ensureAckRegistration config host.now a m
      ((sent.markMessageSent host m (some via) (attemptCount + 1)).offerResendToMesh m a true, some via)
    | none =>
      let refused := (s.emit (.transmitted m.id none)).offerResendToMesh m a false
      (refused.enqueue config host.now m attemptCount, none)

def processRetryEntry (r : RetryEntry)
    (s : SendEngine) : SendEngine :=
  let m := r.message
  let a := host.answers m.id
  if s.lacksAckCapacity config host m then
    s.enqueueWithDelay host.now m r.retryCount config.initialDelayMs
  else if !s.peerWindowAdmits m then s.holdForPeerWindow host m
  else
    let s := s.ensureOutboxEntry host m
    match s.send m a with
    | some via =>
      let s := s.emit (.transmitted m.id (some via))
      let tracked := s.ensureAckRegistration config host.now a m
      let counted :=
        if s.registersAck config a m then tracked.setRetryCount m.id (r.retryCount + 1)
        else tracked.incrementRetryCount host.now m.id
      (counted.markMessageSent host m (some via) (r.retryCount + 1)).offerResendToMesh m a true
    | none =>
      let refused := (s.emit (.transmitted m.id none)).offerResendToMesh m a false
      let again := refused.enqueue config host.now m (r.retryCount + 1)
      match refused.nextRetryAt config host.now m (r.retryCount + 1) with
      | some runsAt => again.emit (.messageRetrying m.id m.recipient (r.retryCount + 1) runsAt)
      | none => again

def processRetries (config : OutboxConfig) (host : SendHost) : ℕ → SendEngine → SendEngine
  | 0, s => s
  | places + 1, s =>
    match s.dequeueReady host.now host.order with
    | none => s
    | some r =>
      processRetries config host places ((s.retryRemove r.message.id).processRetryEntry config host r)

def processRetryQueue : SendEngine :=
  s.processRetries config host (min host.batchShare flushBatchLimit)

def isParkablePlainDm (id : MessageId) : Bool :=
  (get s.pendingConnectionRequests id).isNone && decide (id ∉ s.welcomeIds) && (get s.outbox id).isSome

def parksOf (peer : PeerId) : ℕ := (get s.dmUnreachableParks peer).getD 0

def parkDelayMs (parks : ℕ) : ℕ :=
  min (welcomeNoCarrierRetrySecs * 2 ^ min (parks - 1) 6) welcomeUnreachableRetryCapSecs * 1000

def parkUnreachableDm (recipient : PeerId) (attemptCount : ℕ)
    (stored : Bool) (s : SendEngine) : SendEngine :=
  let s := (s.removeAck id).retryRemove id
  let parks := s.parksOf recipient + 1
  let s := { s with dmUnreachableParks := s.dmUnreachableParks.insert recipient parks }
  match get s.outbox id with
  | none => s
  | some e =>
    let s := s.offerToMesh e.message
    if stored then s else s.enqueueWithDelay host.now e.message attemptCount (parkDelayMs parks)

def parkRelayPushedDm :
    SendEngine :=
  if s.isParkablePlainDm id then
    match get s.outbox id with
    | none => s
    | some e =>
      { s with outbox := modify s.outbox id fun e => { e with relayPushed := true } }.parkUnreachableDm
        host id e.message.recipient e.attemptCount stored
  else s

def handleRecipientUnreachableForMessage : SendEngine :=
  match get s.outbox id with
  | none => s
  | some e =>
    let s := if e.relayPushed then s
      else s.emit (.messageUndeliverable id e.message.recipient "recipient_unreachable")
    s.parkUnreachableDm host id e.message.recipient e.attemptCount stored

inductive SendReport
  | recipientUnreachable (stored : Bool)
  | relayPushed (stored : Bool)
  | other
deriving DecidableEq

def unreachable : SendReport → Bool
  | .recipientUnreachable _ => true
  | _ => false

def handleUntrackedReport (report : SendReport)
    (s : SendEngine) : SendEngine :=
  match report with
  | .recipientUnreachable stored =>
    if id ∈ s.welcomeIds then s else s.handleRecipientUnreachableForMessage host id stored
  | _ => s

def onTransportSendFailed (report : SendReport)
    (s : SendEngine) : SendEngine :=
  match report with
  | .relayPushed stored => s.parkRelayPushedDm host id stored
  | _ =>
    match get s.pendingConnectionRequests id with
    | none => s.handleUntrackedReport host id report
    | some request =>
      let untracked := { s with pendingConnectionRequests := s.pendingConnectionRequests.erase id }
      if pendingConnectionRequestTtlMs < host.now - request.sentAt then
        untracked.handleUntrackedReport host id report
      else if unreachable report then
        untracked.emit (.connectionRequestUndeliverable request.recipient id "recipient_unreachable")
      else s.handleUntrackedReport host id report

def cancelProbeStateForParkedPeer :
    SendEngine :=
  if (get s.dmUnreachableParks peer).isNone then s
  else
    let probing := ((visit s.outbox order).filter fun e => decide (e.2.message.recipient = peer)).map
      fun e => e.2.message.id
    (probing.filter s.isParkablePlainDm).foldl (fun s id => (s.removeAck id).retryRemove id) s

structure Redrive where
  recipient : PeerId
  parkable : Bool
  sentVia : Option TransportType

def redrive (config : OutboxConfig) (host : SendHost) (override : Option TransportType)
    (before : MessageId → SendEngine → SendEngine) :
    List (OutboundMessage × ℕ) → SendEngine → SendEngine × List Redrive
  | [], s => (s, [])
  | (m, attemptCount) :: rest, s =>
    let sent := (before m.id s).tryFlushSendVia config host m attemptCount override
    let later := redrive config host override before rest sent.1
    (later.1, { recipient := m.recipient, parkable := s.isParkablePlainDm m.id, sentVia := sent.2 } ::
      later.2)

def requeue (overflow : List (OutboundMessage × ℕ))
    (s : SendEngine) : SendEngine :=
  overflow.foldl (fun s m => s.enqueue config host.now m.1 m.2) s

def restsInOutbox (id : MessageId) : Bool := !s.isWaitingForAck id

def flushOutboxForPeerVia
    (unparkVia : Option TransportType) (s : SendEngine) : SendEngine :=
  let s := s.cancelProbeStateForParkedPeer host.order peer
  let priorParks := get s.dmUnreachableParks peer
  let s := { s with dmUnreachableParks := s.dmUnreachableParks.erase peer }
  let toSend := ((visit s.outbox host.order).filter fun e =>
      decide (e.2.message.recipient = peer) && s.restsInOutbox e.2.message.id).map
    fun e => (e.2.message, e.2.attemptCount)
  let overflow := toSend.drop flushBatchLimit
  let sent := s.redrive config host unparkVia retryRemove (toSend.take flushBatchLimit)
  let s := sent.1.requeue config host overflow
  let parkedDmSeen := sent.2.any (·.parkable) || overflow.any fun m => sent.1.isParkablePlainDm m.1.id
  let parkedDmRedriven := sent.2.any fun r => r.parkable && r.sentVia.isSome
  match priorParks with
  | some parks =>
    if parkedDmSeen && !parkedDmRedriven then
      { s with dmUnreachableParks := s.dmUnreachableParks.insert peer parks }
    else s
  | none => s

def throughGateway (t : Option TransportType) : Bool := t.any fun t => decide (t ∈ gatewayCarriers)

def flushOutboxAll : SendEngine :=
  let s := ((visit s.dmUnreachableParks host.peerOrder).map Prod.fst).foldl
    (fun s peer => s.cancelProbeStateForParkedPeer host.order peer) s
  let priorParks := s.dmUnreachableParks
  let retries := (s.heapOrder host.order).map fun r => (r.2.message, r.2.retryCount)
  let retryIds : List MessageId := retries.map fun m => m.1.id
  let s := { s with dmUnreachableParks := ∅, retryQueue := ∅ }
  let stranded := ((visit s.outbox host.order).filter fun e =>
      decide (e.2.message.id ∉ retryIds) && s.restsInOutbox e.2.message.id).map
    fun e => (e.2.message, e.2.attemptCount)
  let all := retries ++ stranded
  let places := min host.batchShare flushBatchLimit
  let overflow := all.drop places
  let sent := s.redrive config host none (fun _ s => s) (all.take places)
  let s := sent.1.requeue config host overflow
  let wasParked := fun peer => (get priorParks peer).isSome
  let redriven := (sent.2.filter fun r =>
    wasParked r.recipient && r.parkable && throughGateway r.sentVia).map
    (·.recipient)
  let seen := (sent.2.filter fun r => wasParked r.recipient && r.parkable && !throughGateway r.sentVia).map
      (·.recipient) ++
    (overflow.filter fun m => wasParked m.1.recipient && sent.1.isParkablePlainDm m.1.id).map
      (·.1.recipient)
  { s with
    dmUnreachableParks := retain priorParks fun peer _ => decide (peer ∈ seen) && decide (peer ∉ redriven) }

def flushHeldLine (config : OutboxConfig) (host : SendHost) (peer : PeerId) :
    ℕ → ℕ → SendEngine → SendEngine
  | 0, _, s => s
  | _ + 1, 0, s => s
  | fuel + 1, budget + 1, s =>
    match s.heldFor peer with
    | [] => s
    | id :: rest =>
      let popped := { s with windowHeld := s.windowHeld.insert peer rest }
      match get s.outbox id with
      | none => flushHeldLine config host peer fuel (budget + 1) popped
      | some e =>
        if s.peerWindowAdmits e.message then
          flushHeldLine config host peer fuel budget
            (popped.tryFlushSendVia config host e.message e.attemptCount none).1
        else s

def flushPeerWindow (peer : PeerId) :
    SendEngine :=
  let s := s.flushHeldLine config host peer (s.heldFor peer).length flushBatchLimit
  if (s.heldFor peer).isEmpty then { s with windowHeld := s.windowHeld.erase peer } else s

def flushPeerWindows : SendEngine :=
  ((visit s.windowHeld host.peerOrder).map Prod.fst).foldl (flushPeerWindow config host) s

def reparksExhausted (id : MessageId) (e : OutboxEntry) : Bool :=
  s.isParkablePlainDm id && (get s.dmUnreachableParks e.message.recipient).isSome

def failMaxRetries :
    SendEngine :=
  ((s.emit (.messageFailed id "Max retries exceeded" retryCount)).reportConnectionRequest host.now id
    "max_retries_exceeded").forgetOutboundMessage id

def handleMaxRetriesExceeded :
    SendEngine :=
  match get s.outbox id with
  | some e =>
    if s.reparksExhausted id e then
      s.parkUnreachableDm host id e.message.recipient e.attemptCount false
    else s.failMaxRetries host id retryCount
  | none => s.failMaxRetries host id retryCount

def handleAckTimeoutRetry : SendEngine :=
  match get s.outbox id with
  | some e =>
    let again := s.enqueue config host.now e.message retryCount
    match s.nextRetryAt config host.now e.message retryCount with
    | some runsAt => again.emit (.messageRetrying id e.message.recipient retryCount runsAt)
    | none => again
  | none =>
    (s.emit (.messageFailed id "Message missing from outbox (cannot retry)"
      retryCount)).forgetOutboundMessage id

def handleTimedOutAck
    (pending : MessageId × PendingAck) : SendEngine :=
  match (if pending.1 ∈ host.queuedMessageIds then s.extendWhileQueued host.now pending.1 else none) with
  | some extended => extended
  | none =>
    if config.maxRetries ≤ pending.2.retryCount then
      s.handleMaxRetriesExceeded host pending.1 pending.2.retryCount
    else s.handleAckTimeoutRetry config host pending.1 pending.2.retryCount

def drainTimedOut : SendEngine :=
  { s with
    pendingAcks := mapValues s.pendingAcks fun _ ack =>
      if ackTimedOut now ack then { ack with status := .timedOut } else ack }

def processTimedOutAcks : SendEngine :=
  let timedOut := (visit s.pendingAcks host.order).filter fun ack => ackTimedOut host.now ack.2
  timedOut.foldl (handleTimedOutAck config host) (s.drainTimedOut host.now)

def relayPushWindowClosed : Bool :=
  e.relayPushed && lifetimeExpired now e.firstSentAt redeliveryWindowMs

def outboxExpired (e : OutboxEntry) : Bool :=
  relayPushWindowClosed now e ||
    ((lifetimeExpired now e.lastSentAt config.outboxMaxLifetimeMs ||
        lifetimeExpired now e.firstSentAt
          (min (config.outboxMaxLifetimeMs * outboxAbsoluteLifetimeFactor) (2 ^ 64 - 1))) &&
      !(e.message.requiresAck && s.isWaitingForAck e.message.id))

def expireOutboxEntry (expired : MessageId × OutboxEntry) :
    SendEngine :=
  let s := s.forgetOutboundMessage expired.1
  if expired.2.relayPushed then s
  else
    (s.emit (.messageFailed expired.1 "Outbox lifetime exceeded"
      expired.2.attemptCount)).reportConnectionRequest
      host.now expired.1 "outbox_lifetime_exceeded"

def cleanupOutbox : SendEngine :=
  let expired := (visit s.outbox host.order).filter fun e => s.outboxExpired config host.now e.2
  let s := expired.foldl (expireOutboxEntry host) s
  { s with
    dmUnreachableParks := retain s.dmUnreachableParks fun peer _ =>
      (values s.outbox).any fun e => decide (e.message.recipient = peer) }

def retryCleanupExpired : SendEngine :=
  { s with retryQueue := retain s.retryQueue fun _ r => !retryExpired config now r }

def cleanupExpiredEntries : SendEngine :=
  ((s.retryCleanupExpired config host.now).cleanupOutbox config host).pruneOldTimeouts config host.now

/-- One acknowledgement. A coalesced one is handled as the single ones it stands
for, each an operation of its own. -/
structure AckFrame where
  ackFor : MessageId
  sender : PeerId
  undecryptable : Bool
  hopCount : ℕ
  transport : TransportType
deriving DecidableEq

def ackIsFromTheMessageRecipient (ack : AckFrame) : Bool :=
  match get s.outbox ack.ackFor with
  | none => true
  | some e => decide (ack.sender = e.message.recipient)

def redriveVia : Option TransportType :=
  e.lastTransport.filter fun t => decide (t ∈ host.availableTransports)

def handleUndecryptableAck : SendEngine :=
  match get s.outbox id with
  | none => s
  | some e =>
    if e.message.kind ≠ .sealed || id ∈ s.undecryptableResent then s
    else
      let s := { s with undecryptableResent := id :: s.undecryptableResent }
      (((s.retryRemove id).removeAck id).tryFlushSendVia config host e.message e.attemptCount none).1

def settlePending (pending : PendingAck)
    (s : SendEngine) : SendEngine :=
  let entry := get s.outbox ack.ackFor
  let latency := host.now - (entry.map (·.firstSentAt)).getD pending.sentAt
  let s := (s.removeAck ack.ackFor).emit (.messageDelivered ack.ackFor latency ack.hopCount ack.transport)
  let s := (s.retryRemove ack.ackFor).removeOutboxEntry ack.ackFor
  match entry with
  | none => s
  | some e =>
    if (get s.dmUnreachableParks e.message.recipient).isSome then
      s.flushOutboxForPeerVia config host e.message.recipient (redriveVia host e)
    else s

def settleDmWithoutPendingAck : SendEngine :=
  if s.isParkablePlainDm ack.ackFor then
    match get s.outbox ack.ackFor with
    | none => s
    | some e =>
      let s := (s.retryRemove ack.ackFor).removeOutboxEntry ack.ackFor
      (s.emit (.messageDelivered ack.ackFor (host.now - e.firstSentAt) ack.hopCount
        ack.transport)).flushOutboxForPeerVia
        config host e.message.recipient (redriveVia host e)
  else s

def handleAckMessage :
    SendEngine :=
  if !s.ackIsFromTheMessageRecipient ack then s
  else if ack.undecryptable then s.handleUndecryptableAck config host ack.ackFor
  else
    let s := { s with pendingConnectionRequests := s.pendingConnectionRequests.erase ack.ackFor }
    match get s.pendingAcks ack.ackFor with
    | some pending => s.settlePending config host ack pending
    | none => s.settleDmWithoutPendingAck config host ack

/-- The operations, in the order an application, its peers and its timers happen to
make them. `duplicate` is what the deduplicator answers. -/
inductive Op
  | dispatchPrepared (m : OutboundMessage) (duplicate : Bool)
  | dispatchPreparedVia (m : OutboundMessage) (transport : TransportType) (duplicate : Bool)
  | dispatchInternal (m : OutboundMessage) (duplicate : Bool)
  | sendSyncFrame (m : OutboundMessage) (duplicate : Bool)
  | ack (frame : AckFrame)
  | sendFailed (id : MessageId) (report : SendReport)
  | flushPeer (peer : PeerId) (via : Option TransportType)
  | flushAll
  | flushWindows
  | processRetryQueue
  | processTimedOutAcks
  | cleanup
  /-- A superseded probe or subscription frame is withdrawn. -/
  | forget (id : MessageId)
  | linksChanged (links : List (TransportType × PeerId))
  | welcomesChanged (ids : List MessageId)
  | trackConnectionRequest (id : MessageId) (recipient : PeerId)

def perform : Op → SendEngine
  | .dispatchPrepared m duplicate => if duplicate then s else s.dispatchPreparedMessage config host m
  | .dispatchPreparedVia m transport duplicate =>
    if duplicate then s else s.dispatchPreparedMessageVia config host m transport
  | .dispatchInternal m duplicate => if duplicate then s else s.dispatchInternalMessage config host m
  | .sendSyncFrame m duplicate => if duplicate then s else s.sendSyncFrameToPeer config host m
  | .ack frame => s.handleAckMessage config host frame
  | .sendFailed id report => s.onTransportSendFailed host id report
  | .flushPeer peer via => s.flushOutboxForPeerVia config host peer via
  | .flushAll => s.flushOutboxAll config host
  | .flushWindows => s.flushPeerWindows config host
  | .processRetryQueue => SendEngine.processRetryQueue config host s
  | .processTimedOutAcks => SendEngine.processTimedOutAcks config host s
  | .cleanup => s.cleanupExpiredEntries config host
  | .forget id => s.forgetOutboundMessage id
  | .linksChanged links => { s with links }
  | .welcomesChanged ids => { s with welcomeIds := ids }
  | .trackConnectionRequest id recipient =>
    { s with
      pendingConnectionRequests :=
        s.pendingConnectionRequests.insert id { recipient, sentAt := host.now } }

def step (op : SendHost × Op) :
    SendEngine × List OutboxEvent :=
  let after := s.perform config op.1 op.2
  ({ after with log := [] }, after.log)

end SendEngine

end OfflineProtocol
