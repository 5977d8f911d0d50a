import OfflineProtocol.EventTrace
import OfflineProtocol.Message
import Mathlib.Data.List.MinMax
import Mathlib.Data.Prod.Lex
import Mathlib.Data.String.Basic

/-! The queue of messages the application sent before a session with their recipient
was ready. What the MLS library, the transports and the Welcome of the session
answer is part of each operation. -/
namespace OfflineProtocol
open KeyedTable

def maxPendingMessagesPerPeer : ℕ := 64

def maxPendingMessagesGlobal : ℕ := 4096

def maxPendingExpiriesPerPass : ℕ := 64

def maxPendingMessageBytesPerPeer : ℕ := 2 * 1024 * 1024

def maxPendingMessageBytesGlobal : ℕ := 16 * 1024 * 1024

def maxSignedMillis : ℕ := 2 ^ 63 - 1

/-- Instants are milliseconds of the wall clock. A lifetime no signed word can
hold never runs out. -/
def lifetimeExpired (now timestamp lifetimeMs : ℕ) : Bool :=
  lifetimeMs ≤ maxSignedMillis && timestamp + lifetimeMs ≤ now

structure PendingMessage where
  messageId : MessageId
  queuedAt : ℕ
  serializedBytes : ℕ
deriving DecidableEq

inductive WelcomeReasonCode
  | transportUnavailable
  | peerUnreachable
  | peerDisconnected
  | timeout
  | internalError
  | retryExhausted
deriving DecidableEq

def WelcomeReasonCode.asStr : WelcomeReasonCode → String
  | .transportUnavailable => "TRANSPORT_UNAVAILABLE"
  | .peerUnreachable => "PEER_UNREACHABLE"
  | .peerDisconnected => "PEER_DISCONNECTED"
  | .timeout => "TIMEOUT"
  | .internalError => "INTERNAL_ERROR"
  | .retryExhausted => "RETRY_EXHAUSTED"

def WelcomeReasonCode.welcomeFailureReason (reason : WelcomeReasonCode) : String :=
  "Welcome delivery failed: " ++ reason.asStr

inductive PreSessionEvent
  /-- A send was queued, and the application holds its id. -/
  | queued (recipient : PeerId) (id : MessageId)
  /-- A queued message was handed to the outbox. -/
  | dispatched (id : MessageId)
  | failed (id : MessageId) (reason : String)
  | secureSessionFailed (peer : PeerId) (reason : String)
deriving DecidableEq

structure PreSessionConfig where
  pendingMessageMaxLifetimeMs : ℕ
  exactDedup : Bool

structure PreSessionQueue where
  pendingEncryptedMessages : Table PeerId (List PendingMessage)
  nextPendingMessageExpiry : Option ℕ
  terminalWelcomes : List PeerId
  blockedUsers : List PeerId
  seen : List MessageId
  minted : List MessageId

namespace PreSessionQueue
variable (config : PreSessionConfig) (q : PreSessionQueue) (peer : PeerId) (recipient : PeerId)
  (now : ℕ) (message : PendingMessage)

def empty : PreSessionQueue where
  pendingEncryptedMessages := ∅
  nextPendingMessageExpiry := none
  terminalWelcomes := []
  blockedUsers := []
  seen := []
  minted := []

def queueFor : List PendingMessage :=
  (get q.pendingEncryptedMessages recipient).getD []

def setQueue (messages : List PendingMessage) :
    PreSessionQueue :=
  { q with
    pendingEncryptedMessages :=
      if messages.isEmpty then q.pendingEncryptedMessages.erase recipient
      else q.pendingEncryptedMessages.insert recipient messages }

def totalPendingMessageCount : ℕ :=
  tally q.pendingEncryptedMessages List.length

def bytesOf (messages : List PendingMessage) : ℕ := (messages.map (·.serializedBytes)).sum

def totalPendingMessageBytes : ℕ :=
  tally q.pendingEncryptedMessages bytesOf

def pendingMessageBytesFor : ℕ :=
  bytesOf (q.queueFor recipient)

def pendingMessageExpiry (queuedAt : ℕ) : Option ℕ :=
  if config.pendingMessageMaxLifetimeMs ≤ maxSignedMillis then
    some (queuedAt + config.pendingMessageMaxLifetimeMs)
  else none

def notePendingMessageExpiry (queuedAt : ℕ) :
    PreSessionQueue :=
  match pendingMessageExpiry config queuedAt with
  | none => q
  | some expiry =>
    { q with
      nextPendingMessageExpiry := some ((q.nextPendingMessageExpiry.map (min · expiry)).getD expiry) }

def recomputeNextPendingMessageExpiry :
    PreSessionQueue :=
  { q with
    nextPendingMessageExpiry :=
      ((values q.pendingEncryptedMessages).flatten.filterMap
        fun m => pendingMessageExpiry config m.queuedAt).min? }

def evictPendingMessageAt (index : ℕ) :
    Option (PendingMessage × PreSessionQueue) :=
  match (q.queueFor recipient)[index]? with
  | none => none
  | some m => some (m, q.setQueue recipient ((q.queueFor recipient).eraseIdx index))

def places : List (PeerId × ℕ × PendingMessage) :=
  q.pendingEncryptedMessages.entries.flatMap fun e => e.2.zipIdx.map fun p => (e.1, p.2, p.1)

def oldestPlace : Option (PeerId × ℕ × PendingMessage) :=
  q.places.argmin fun p => toLex (p.2.2.queuedAt, p.2.2.messageId)

def evictOldestPendingMessage : Option (PendingMessage × PreSessionQueue) :=
  match q.oldestPlace with
  | none => none
  | some (recipient, index, _) => q.evictPendingMessageAt recipient index

/-- Evicts one message at a time while the queue is over a limit. Each round takes
one message out, so `fuel` is the number of them. -/
def evictWhile (next : PreSessionQueue → Option (PendingMessage × PreSessionQueue))
    (tooFull : PreSessionQueue → Bool) : ℕ → PreSessionQueue → List PendingMessage × PreSessionQueue
  | 0, q => ([], q)
  | fuel + 1, q =>
    if tooFull q then
      match next q with
      | none => ([], q)
      | some (m, q') =>
        let rest := evictWhile next tooFull fuel q'
        (m :: rest.1, rest.2)
    else ([], q)

def makeRoom (incoming : ℕ) :
    List PendingMessage × PreSessionQueue :=
  let own := fun q => evictPendingMessageAt q recipient 0
  let fuel := q.totalPendingMessageCount
  let byCount := evictWhile own
    (fun q => maxPendingMessagesPerPeer ≤ (q.queueFor recipient).length) fuel q
  let byBytes := evictWhile own
    (fun q => maxPendingMessageBytesPerPeer < q.pendingMessageBytesFor recipient + incoming) fuel
    byCount.2
  let byTotal := evictWhile evictOldestPendingMessage
    (fun q => maxPendingMessagesGlobal ≤ q.totalPendingMessageCount) fuel byBytes.2
  let byTotalBytes := evictWhile evictOldestPendingMessage
    (fun q => maxPendingMessageBytesGlobal < q.totalPendingMessageBytes + incoming) fuel byTotal.2
  (byCount.1 ++ byBytes.1 ++ byTotal.1 ++ byTotalBytes.1, byTotalBytes.2)

def queuePendingMessageAt : PreSessionQueue × List PreSessionEvent :=
  let room := q.makeRoom recipient message.serializedBytes
  let pushed := { room.2 with
    pendingEncryptedMessages := room.2.pendingEncryptedMessages.insert recipient
      (room.2.queueFor recipient ++ [message]) }
  (pushed.notePendingMessageExpiry config message.queuedAt,
    room.1.map fun m => .failed m.messageId "Pending session queue capacity exceeded")

def dropPendingQueueForPeer
    (reason : String) : PreSessionQueue × List PreSessionEvent :=
  ((q.setQueue recipient []).recomputeNextPendingMessageExpiry config,
    (q.queueFor recipient).map fun m => .failed m.messageId reason)

def abortPendingSessionForPeer
    (reason : WelcomeReasonCode) : PreSessionQueue × List PreSessionEvent :=
  let dropped := q.dropPendingQueueForPeer config peer reason.welcomeFailureReason
  (dropped.1, dropped.2 ++ [.secureSessionFailed peer reason.welcomeFailureReason])

def hasTerminalWelcomeFailure : Bool :=
  peer ∈ q.terminalWelcomes

inductive WelcomeChange
  /-- A fresh session brought a fresh Welcome. -/
  | renewed
  /-- The Welcome failed for good, and the session was given up with it. -/
  | expired (reason : WelcomeReasonCode)
deriving DecidableEq

def changeWelcome (q : PreSessionQueue) :
    WelcomeChange → PreSessionQueue × List PreSessionEvent
  | .renewed => ({ q with terminalWelcomes := q.terminalWelcomes.filter (· ≠ peer) }, [])
  | .expired reason =>
    abortPendingSessionForPeer config { q with terminalWelcomes := peer :: q.terminalWelcomes } peer
      reason

def establish (config : PreSessionConfig) (peer : PeerId) :
    PreSessionQueue → List WelcomeChange → PreSessionQueue × List PreSessionEvent
  | q, [] => (q, [])
  | q, change :: changes =>
    let first := q.changeWelcome config peer change
    let rest := establish config peer first.1 changes
    (rest.1, first.2 ++ rest.2)

def queueMessageForSessionEstablishment :
    PreSessionQueue × List PreSessionEvent × Bool :=
  let queued := q.queuePendingMessageAt config recipient message
  if queued.1.hasTerminalWelcomeFailure recipient then
    let aborted := queued.1.abortPendingSessionForPeer config recipient .retryExhausted
    (aborted.1, queued.2 ++ aborted.2, false)
  else (queued.1, queued.2, true)

inductive Preparation
  /-- The content is sealed for the recipient. -/
  | ready
  | notReady
  | error
deriving DecidableEq

structure FlushAnswer where
  /-- Whether the deduplicator takes the id for one it has seen, as far as that is
  open: a filter may err, and a marked id may have been forgotten. -/
  hit : Bool
  establishment : List WelcomeChange
  preparation : Preparation
  created : Bool
  dispatched : Bool
deriving DecidableEq

def isDuplicate
    (answer : FlushAnswer) : Bool :=
  answer.hit && (!config.exactDedup || message.messageId ∈ q.seen)

def flushMessage (q : PreSessionQueue)
    (message : PendingMessage) (answer : FlushAnswer) :
    PreSessionQueue × List PreSessionEvent × Bool :=
  if lifetimeExpired now message.queuedAt config.pendingMessageMaxLifetimeMs then (q, [], true)
  else if q.isDuplicate config message answer then
    -- An exact hit says the id went out before; a filter's may be wrong.
    (q, if config.exactDedup then [] else [.failed message.messageId
      "Duplicate suppressed at flush (probabilistic dedup; possible false positive)"], false)
  else
    let kicked := q.establish config recipient answer.establishment
    match answer.preparation with
    | .error => (kicked.1, kicked.2, true)
    | .notReady =>
      let queued := kicked.1.queueMessageForSessionEstablishment config recipient message
      (queued.1, kicked.2 ++ queued.2.1, !queued.2.2)
    | .ready =>
      if answer.created then
        ({ kicked.1 with seen := message.messageId :: kicked.1.seen },
          kicked.2 ++ [.dispatched message.messageId], !answer.dispatched)
      else (kicked.1, kicked.2, true)

def flushMessages (config : PreSessionConfig) (recipient : PeerId) (now : ℕ)
    (answers : MessageId → FlushAnswer) :
    PreSessionQueue → List PendingMessage →
      PreSessionQueue × List PreSessionEvent × List PendingMessage
  | q, [] => (q, [], [])
  | q, m :: ms =>
    let one := q.flushMessage config recipient now m (answers m.messageId)
    let rest := flushMessages config recipient now answers one.1 ms
    (rest.1, one.2.1 ++ rest.2.1, if one.2.2 then m :: rest.2.2 else rest.2.2)

def restoreRemaining (order : List MessageId)
    (q : PreSessionQueue) (remaining : List PendingMessage) : PreSessionQueue :=
  let merged := (q.queueFor recipient ++ remaining).insertionSort
    fun a b => order.idxOf a.messageId ≤ order.idxOf b.messageId
  remaining.foldl (fun q m => q.notePendingMessageExpiry config m.queuedAt)
    { q with pendingEncryptedMessages := q.pendingEncryptedMessages.insert recipient merged }

def flushPendingMessages (answers : MessageId → FlushAnswer) : PreSessionQueue × List PreSessionEvent :=
  let pending := q.queueFor recipient
  let taken := q.setQueue recipient []
  if recipient ∈ q.blockedUsers then
    (taken, pending.map fun m => .failed m.messageId "Recipient blocked")
  else
    let flushed := taken.flushMessages config recipient now answers pending
    if flushed.2.2.isEmpty then (flushed.1, flushed.2.1)
    else if flushed.1.hasTerminalWelcomeFailure recipient then
      -- The abort is taken to have settled what was kept back.
      (flushed.1, flushed.2.1)
    else
      (flushed.1.restoreRemaining config recipient (pending.map (·.messageId)) flushed.2.2,
        flushed.2.1)

def expireMessages (config : PreSessionConfig) (now : ℕ) :
    ℕ → List PendingMessage → List PendingMessage × List PendingMessage
  | _, [] => ([], [])
  | 0, ms => (ms, [])
  | budget + 1, m :: ms =>
    if lifetimeExpired now m.queuedAt config.pendingMessageMaxLifetimeMs then
      let rest := expireMessages config now budget ms
      (rest.1, m :: rest.2)
    else
      let rest := expireMessages config now (budget + 1) ms
      (m :: rest.1, rest.2)

def expireQueues (config : PreSessionConfig) (now : ℕ) :
    List (PeerId × List PendingMessage) → PreSessionQueue × List PendingMessage →
      PreSessionQueue × List PendingMessage
  | [], acc => acc
  | (recipient, messages) :: rest, (q, gone) =>
    let split := expireMessages config now (maxPendingExpiriesPerPass - gone.length) messages
    expireQueues config now rest
      (if split.2.isEmpty then (q, gone) else (q.setQueue recipient split.1, gone ++ split.2))

def cleanupExpiredPendingMessages
    (order : List PeerId) : PreSessionQueue × List PreSessionEvent :=
  match q.nextPendingMessageExpiry with
  | none => (q, [])
  | some expiry =>
    if expiry ≤ now then
      let passed := expireQueues config now (visit q.pendingEncryptedMessages order) (q, [])
      (passed.1.recomputeNextPendingMessageExpiry config,
        passed.2.map fun m => .failed m.messageId "Pending session lifetime exceeded")
    else (q, [])

def send (establishment : List WelcomeChange) :
    PreSessionQueue × List PreSessionEvent :=
  if recipient ∈ q.blockedUsers then (q, [])
  else
    let kicked := q.establish config recipient establishment
    let queued := queueMessageForSessionEstablishment config
      { kicked.1 with minted := message.messageId :: kicked.1.minted } recipient message
    (queued.1, kicked.2 ++ .queued recipient message.messageId :: queued.2.1)

def blockUser (user : PeerId) : PreSessionQueue :=
  { q with blockedUsers := user :: q.blockedUsers }

def unblockUser (user : PeerId) :
    PreSessionQueue × List PreSessionEvent :=
  if user ∈ q.blockedUsers then
    dropPendingQueueForPeer config { q with blockedUsers := q.blockedUsers.filter (· ≠ user) } user
      "Peer session state reset on unblock"
  else (q, [])

inductive Op
  | send (recipient : PeerId) (message : PendingMessage) (establishment : List WelcomeChange)
  | flush (recipient : PeerId) (now : ℕ) (answers : MessageId → FlushAnswer)
  | expire (now : ℕ) (order : List PeerId)
  | welcome (peer : PeerId) (change : WelcomeChange)
  | block (user : PeerId)
  | unblock (user : PeerId)

def step :
    Op → PreSessionQueue × List PreSessionEvent
  | .send recipient message establishment => q.send config recipient message establishment
  | .flush recipient now answers => q.flushPendingMessages config recipient now answers
  | .expire now order => q.cleanupExpiredPendingMessages config now order
  | .welcome peer change => q.changeWelcome config peer change
  | .block user => (q.blockUser user, [])
  | .unblock user => q.unblockUser config user

end PreSessionQueue

end OfflineProtocol
