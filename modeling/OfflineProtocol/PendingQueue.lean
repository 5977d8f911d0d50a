import OfflineProtocol.Message
import Mathlib.Data.Finset.Basic

/-! The bounded queue of encrypted messages that arrived before their session
was ready: per-peer FIFO queues with a global order index, count and byte
limits, expiry and an overflow policy. Counters and gauges are left out; they
only feed logs. -/
namespace OfflineProtocol
open KeyedTable

structure PendingQueueConfig where
  maxPendingPerPeer : ℕ
  maxPendingGlobal : ℕ
  maxPendingBytesPerPeer : ℕ
  maxPendingBytesGlobal : ℕ
  pendingTtlMs : ℕ
  overflowPolicy : OverflowPolicy
deriving DecidableEq

def PendingQueueConfig.default : PendingQueueConfig where
  maxPendingPerPeer := 64
  maxPendingGlobal := 4096
  maxPendingBytesPerPeer := 4 * 1024 * 1024
  maxPendingBytesGlobal := 32 * 1024 * 1024
  pendingTtlMs := 24 * 60 * 60 * 1000
  overflowPolicy := .dropOldest

structure PendingDecryptMessage where
  peerId : PeerId
  messageId : MessageId
  receivedAt : ℕ
  sequence : ℕ
  message : Message
  receivedVia : Option TransportType
deriving DecidableEq

structure EntryRef where
  peerId : PeerId
  messageId : MessageId
  sequence : ℕ
deriving DecidableEq

inductive DropReason
  | overflowDropOldest
  | overflowDropNewest
  | ttlExpired
deriving DecidableEq

def DropReason.asStr : DropReason → String
  | .overflowDropOldest => "overflow_drop_oldest"
  | .overflowDropNewest => "overflow_drop_newest"
  | .ttlExpired => "ttl_expired"

structure DroppedPendingMessage where
  message : Message
  reason : String
  receivedVia : Option TransportType
deriving DecidableEq

def PendingDecryptMessage.dropped (e : PendingDecryptMessage) (reason : DropReason) :
    DroppedPendingMessage :=
  ⟨e.message, reason.asStr, e.receivedVia⟩

inductive PendingAdmission
  | admitted
  | alreadyQueued
  | refused
deriving DecidableEq

structure EnqueueOutcome where
  admitted : Bool
  dropped : List DroppedPendingMessage
  refused : Option DroppedPendingMessage

structure PendingDecryptionQueue where
  queues : Table PeerId (List PendingDecryptMessage)
  globalOrder : List EntryRef
  liveSequences : Finset ℕ
  total : ℕ
  totalBytes : ℕ
  peerBytes : Table PeerId ℕ
  nextSeq : ℕ

namespace PendingDecryptionQueue
variable (config : PendingQueueConfig) (q : PendingDecryptionQueue) (peer : PeerId)
  (sender : PeerId) (incoming : ℕ) (message : Message) (via : Option TransportType) (now : ℕ)

def empty : PendingDecryptionQueue where
  queues := ∅
  globalOrder := []
  liveSequences := ∅
  total := 0
  totalBytes := 0
  peerBytes := ∅
  nextSeq := 0

def messageBytes (m : Message) : ℕ := m.footprint

def peerBytesFor : ℕ := (get q.peerBytes peer).getD 0

def queueOf : List PendingDecryptMessage :=
  (get q.queues peer).getD []

def isEntryExpired (e : PendingDecryptMessage) : Bool :=
  decide (config.pendingTtlMs ≤ now - e.receivedAt)

def cleanupGlobalOrderFront : PendingDecryptionQueue :=
  { q with globalOrder := q.globalOrder.dropWhile fun r => decide (r.sequence ∉ q.liveSequences) }

def removeEntryBySequence (sequence : ℕ) :
    Option (PendingDecryptMessage × PendingDecryptionQueue) :=
  match get q.queues peer with
  | none => none
  | some queue =>
    match queue.find? fun e => decide (e.sequence = sequence) with
    | none => none
    | some removed =>
      let rest := queue.eraseP fun e => decide (e.sequence = sequence)
      let bytes := messageBytes removed.message
      let q := { q with
        liveSequences := q.liveSequences.erase sequence
        total := q.total - 1
        totalBytes := q.totalBytes - bytes
        peerBytes := modify q.peerBytes peer (· - bytes) }
      if rest = [] then
        some (removed, { q with queues := q.queues.erase peer, peerBytes := q.peerBytes.erase peer })
      else some (removed, { q with queues := q.queues.insert peer rest })

def expireEach (peer : PeerId) :
    List PendingDecryptMessage → PendingDecryptionQueue →
      PendingDecryptionQueue × List DroppedPendingMessage
  | [], q => (q, [])
  | e :: es, q =>
    match q.removeEntryBySequence peer e.sequence with
    | some (removed, q) =>
      let r := expireEach peer es q
      (r.1, removed.dropped .ttlExpired :: r.2)
    | none => expireEach peer es q

def pruneExpiredForPeer : PendingDecryptionQueue × List DroppedPendingMessage :=
  let r := expireEach peer ((q.queueOf peer).takeWhile (isEntryExpired config now)) q
  (r.1.cleanupGlobalOrderFront, r.2)

def pruneGlobalLoop (config : PendingQueueConfig) (now : ℕ) :
    List EntryRef → ℕ → PendingDecryptionQueue → PendingDecryptionQueue × List DroppedPendingMessage
  | order, 0, q => ({ q with globalOrder := order }, [])
  | [], _ + 1, q => ({ q with globalOrder := [] }, [])
  | front :: rest, left + 1, q =>
    if front.sequence ∉ q.liveSequences then pruneGlobalLoop config now rest (left + 1) q
    else
      match (q.queueOf front.peerId).find? fun e => decide (e.sequence = front.sequence) with
      | none => pruneGlobalLoop config now rest (left + 1) q
      | some e =>
        if !isEntryExpired config now e then ({ q with globalOrder := front :: rest }, [])
        else
          match q.removeEntryBySequence front.peerId front.sequence with
          | some (removed, q) =>
            let r := pruneGlobalLoop config now rest left q
            (r.1, removed.dropped .ttlExpired :: r.2)
          | none => pruneGlobalLoop config now rest (left + 1) q

def pruneExpiredGlobalFront
    (maxEvictions : ℕ) : PendingDecryptionQueue × List DroppedPendingMessage :=
  pruneGlobalLoop config now q.globalOrder maxEvictions q

def evictGlobalOldest :
    PendingDecryptionQueue × Option PendingDecryptMessage :=
  let q := q.cleanupGlobalOrderFront
  match q.globalOrder with
  | [] => (q, none)
  | front :: rest =>
    let q := { q with globalOrder := rest }
    if front.sequence ∉ q.liveSequences then (q, none)
    else
      match q.removeEntryBySequence front.peerId front.sequence with
      | some (removed, q) => (q, some removed)
      | none => (q, none)

def evictPeerLoop (fits : PendingDecryptionQueue → Bool) (sender : PeerId) :
    ℕ → PendingDecryptionQueue → PendingDecryptionQueue × List DroppedPendingMessage
  | 0, q => (q, [])
  | fuel + 1, q =>
    if fits q then (q, [])
    else
      match (q.queueOf sender).head?.bind fun e => q.removeEntryBySequence sender e.sequence with
      | some (removed, q) =>
        let r := evictPeerLoop fits sender fuel q
        (r.1, removed.dropped .overflowDropOldest :: r.2)
      | none => (q, [])

def evictGlobalLoop (fits : PendingDecryptionQueue → Bool) :
    ℕ → PendingDecryptionQueue → PendingDecryptionQueue × List DroppedPendingMessage
  | 0, q => (q, [])
  | fuel + 1, q =>
    if fits q then (q, [])
    else
      match q.evictGlobalOldest with
      | (q, some removed) =>
        let r := evictGlobalLoop fits fuel q
        (r.1, removed.dropped .overflowDropOldest :: r.2)
      | (q, none) => (q, [])

def peerBytesFit
    (q : PendingDecryptionQueue) : Bool :=
  decide (q.peerBytesFor sender + incoming ≤ config.maxPendingBytesPerPeer)

def globalCountFits : Bool :=
  decide (q.total < config.maxPendingGlobal)

def globalBytesFit (q : PendingDecryptionQueue) :
    Bool :=
  decide (q.totalBytes + incoming ≤ config.maxPendingBytesGlobal)

def enforce (policy : OverflowPolicy) (fits : PendingDecryptionQueue → Bool)
    (evict : PendingDecryptionQueue → PendingDecryptionQueue × List DroppedPendingMessage)
    (q : PendingDecryptionQueue) : PendingDecryptionQueue × List DroppedPendingMessage × Bool :=
  if fits q then (q, [], true)
  else
    match policy with
    | .dropNewest => (q, [], false)
    | .dropOldest =>
      let r := evict q
      (r.1, r.2, fits r.1)

def enforceAll :
    List (PendingDecryptionQueue → PendingDecryptionQueue × List DroppedPendingMessage × Bool) →
    PendingDecryptionQueue → PendingDecryptionQueue × List DroppedPendingMessage × Bool
  | [], q => (q, [], true)
  | limit :: limits, q =>
    let r := limit q
    if r.2.2 then
      let rs := enforceAll limits r.1
      (rs.1, r.2.1 ++ rs.2.1, rs.2.2)
    else r

def limits :
    List (PendingDecryptionQueue → PendingDecryptionQueue × List DroppedPendingMessage × Bool) :=
  let policy := config.overflowPolicy
  let peerCountFits := fun q : PendingDecryptionQueue =>
    decide ((q.queueOf sender).length < config.maxPendingPerPeer)
  [enforce policy peerCountFits (evictPeerLoop peerCountFits sender 1),
    enforce policy (peerBytesFit config sender incoming) fun q =>
      evictPeerLoop (peerBytesFit config sender incoming) sender (q.queueOf sender).length q,
    enforce policy (globalCountFits config) fun q =>
      evictGlobalLoop (globalCountFits config) q.globalOrder.length q,
    enforce policy (globalBytesFit config incoming) fun q =>
      evictGlobalLoop (globalBytesFit config incoming) q.globalOrder.length q]

def pushBack : PendingDecryptionQueue :=
  let e : PendingDecryptMessage :=
    { peerId := sender, messageId := message.id, receivedAt := now, sequence := q.nextSeq
      message := message, receivedVia := via }
  let bytes := messageBytes message
  cleanupGlobalOrderFront
    { queues := q.queues.insert sender (q.queueOf sender ++ [e])
      globalOrder := q.globalOrder ++ [⟨sender, message.id, q.nextSeq⟩]
      liveSequences := Insert.insert q.nextSeq q.liveSequences
      total := q.total + 1
      totalBytes := q.totalBytes + bytes
      peerBytes := q.peerBytes.insert sender (q.peerBytesFor sender + bytes)
      nextSeq := q.nextSeq + 1 }

def overBounds (q : PendingDecryptionQueue) : Bool :=
  decide (config.maxPendingGlobal < q.total) ||
    decide (config.maxPendingBytesGlobal < q.totalBytes) ||
    decide (config.maxPendingPerPeer < (q.queueOf sender).length) ||
    decide (config.maxPendingBytesPerPeer < q.peerBytesFor sender)

def enqueueViaInner :
    PendingDecryptionQueue × List DroppedPendingMessage × PendingAdmission :=
  let peer := q.pruneExpiredForPeer config sender now
  let front := peer.1.pruneExpiredGlobalFront config now 64
  let q := front.1
  let dropped := peer.2 ++ front.2
  let incoming := messageBytes message
  if (q.queueOf sender).any fun e => decide (e.messageId = message.id) then
    (q, dropped, .alreadyQueued)
  else if config.maxPendingBytesPerPeer < incoming ∨ config.maxPendingBytesGlobal < incoming then
    (q, dropped, .refused)
  else
    let room := enforceAll (limits config sender incoming) q
    let dropped := dropped ++ room.2.1
    if !room.2.2 then (room.1, dropped, .refused)
    else
      let pushed := room.1.pushBack sender message via now
      -- The insertion is rolled back when a hard bound is exceeded after it.
      if pushed.overBounds config sender then
        match pushed.removeEntryBySequence sender room.1.nextSeq with
        | some (_, q) => (q, dropped, .refused)
        | none => (pushed, dropped, .refused)
      else (pushed, dropped, .admitted)

def enqueueVia :
    PendingDecryptionQueue × EnqueueOutcome :=
  let r := q.enqueueViaInner config sender message via now
  (r.1,
    { admitted := decide (r.2.2 = .admitted)
      dropped := r.2.1
      refused :=
        if r.2.2 = .refused then some ⟨message, DropReason.overflowDropNewest.asStr, via⟩
        else none })

def forgetEntry (e : PendingDecryptMessage) : PendingDecryptionQueue :=
  { q with
    liveSequences := q.liveSequences.erase e.sequence
    total := q.total - 1
    totalBytes := q.totalBytes - messageBytes e.message }

def drainForPeer : PendingDecryptionQueue × List PendingDecryptMessage :=
  let q := (q.pruneExpiredForPeer config sender now).1
  match get q.queues sender with
  | none => (q, [])
  | some [] => ({ q with queues := q.queues.erase sender }, [])
  | some drained =>
    let q := drained.foldl forgetEntry { q with queues := q.queues.erase sender }
    (cleanupGlobalOrderFront { q with peerBytes := q.peerBytes.erase sender }, drained)

end PendingDecryptionQueue

end OfflineProtocol
