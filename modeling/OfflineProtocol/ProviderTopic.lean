import OfflineProtocol.KeyedTable
import OfflineProtocol.SubscriptionTypes

/-! One topic of a provider and one subscription held on it: what a publish
leaves behind in the topic, which topics a subscription follows, the frames the
provider writes, and what catches a subscriber up on a topic. -/
namespace OfflineProtocol
open KeyedTable

structure Topic where
  mode : SubscriptionMode
  stream : String
  nextSeq : ℕ
  latest : Table String (ℕ × String)
  latestBytes : ℕ
  log : List (ℕ × String)
  logBytes : ℕ
  checkpoint : Option (ℕ × String)

namespace Topic

def new (mode : SubscriptionMode) (stream : String) : Topic :=
  { mode, stream, nextSeq := 1, latest := ∅, latestBytes := 0, log := [], logBytes := 0,
    checkpoint := none }

def lastSeq (t : Topic) : ℕ := t.nextSeq - 1

def filtered (t : Topic) (filter : List String) : List (String × ℕ × String) :=
  (sorted t.latest).filter fun e => keyMatches filter e.1

def digest (t : Topic) (filter : List String) : UInt64 :=
  OfflineProtocol.digest ((t.filtered filter).map fun e => (e.1, e.2.1))

def bufferCoversAfter (t : Topic) (seq : ℕ) : Bool :=
  if t.lastSeq ≤ seq then true
  else
    match t.log.head? with
    | some (first, _) => first ≤ seq + 1
    | none => false

def trimLog : List (ℕ × String) → ℕ → List (ℕ × String) × ℕ
  | [], bytes => ([], bytes)
  | e :: log, bytes =>
    if maxLogEntries < (e :: log).length ∨ maxLogBytes < bytes then
      trimLog log (bytes - e.2.utf8ByteSize)
    else (e :: log, bytes)

def record (t : Topic) (key : Option String) (body : String) : Except ServiceError Topic :=
  match key with
  | some key =>
    let previous := (get t.latest key).map fun old => key.utf8ByteSize + old.2.utf8ByteSize
    if previous = none ∧ maxLatestKeys ≤ t.latest.entries.length then
      .error (.payloadTooLarge "a `latest` topic holds at most 256 keys; clear it to start over")
    else
      let bytes := t.latestBytes - previous.getD 0 + key.utf8ByteSize + body.utf8ByteSize
      if maxLatestBytes < bytes then
        .error (.payloadTooLarge
          "a `latest` topic holds at most 262144 bytes; clear it to start over")
      else
        .ok { t with latest := t.latest.insert key (t.nextSeq, body), latestBytes := bytes,
                     nextSeq := t.nextSeq + 1 }
  | none =>
    let (log, logBytes) := trimLog (t.log ++ [(t.nextSeq, body)]) (t.logBytes + body.utf8ByteSize)
    .ok { t with log, logBytes, nextSeq := t.nextSeq + 1 }

end Topic

structure ProviderSub where
  subscriber : String
  serviceId : String
  topic : String
  mode : SubscriptionMode
  params : String
  keys : List String
  followed : List String
  admitted : Bool
  admittedByApp : Bool
  askedAt : ℕ
  lease : ℕ
  leaseUntil : ℕ
  pendingResume : Option ResumePosition
  pendingResync : Bool
  lastSent : Option ℕ
  dirty : List (String × String)
  patternFull : Bool
  patternFullReported : Bool

def addOrdered {α : Type} [DecidableEq α] (le : α → α → Prop) [DecidableRel le] (a : α)
    (l : List α) : List α :=
  if a ∈ l then l else l.orderedInsert le a

def dirtyLe (a b : String × String) : Prop := a.1 < b.1 ∨ a.1 = b.1 ∧ a.2 ≤ b.2

instance : DecidableRel dirtyLe := fun _ _ => inferInstanceAs (Decidable (_ ∨ _ ∧ _))

namespace ProviderSub
variable (sub : ProviderSub)

def isPattern : Bool := isTopicPattern sub.topic

def follows (topic : String) (mode : SubscriptionMode) : ProviderSub × Bool :=
  if sub.isPattern then
    if mode = sub.mode ∧ topicMatches sub.topic topic then
      if topic ∈ sub.followed then (sub, true)
      else if maxPatternTopics ≤ sub.followed.length then ({ sub with patternFull := true }, false)
      else ({ sub with followed := addOrdered (· ≤ ·) topic sub.followed }, true)
    else (sub, false)
  else (sub, sub.topic == topic)

def candidates (topics : Table (String × String) Topic) : List String :=
  ((topics.entries.filter fun e => e.1.1 = sub.serviceId ∧ e.2.mode = sub.mode).map
    fun e => e.1.2).insertionSort (· ≤ ·)

def followExisting (topics : Table (String × String) Topic) : ProviderSub :=
  if sub.isPattern then
    (sub.candidates topics).foldl (fun sub name => (sub.follows name sub.mode).1) sub
  else sub

def label (topic : String) : Option String :=
  if sub.isPattern then some topic else none

end ProviderSub

variable (subId : String) (sub : ProviderSub) (leaseMs : ℕ) (name : String) (topic : Topic)
  (sameStream : Option ResumePosition)

def clampLease : ℕ :=
  fromMillis (max minSubscriptionLeaseMs (min leaseMs maxSubscriptionLeaseMs))

def replyKey : String := "reply:" ++ subId

def providerChanged (state : SubscriptionState)
    (reason : String) : ServiceEvent :=
  changed subId .provider sub.serviceId sub.topic sub.subscriber state reason

def replyContent (status : SubscribeStatus) (reason : Option String)
    (leaseMs : ℕ) (stream : String) (seq : ℕ) (historyLost : Bool) : Content :=
  encode (.subscribeReply { subId, status, reason, leaseMs, stream, seq, historyLost, topics := [],
                            patternFull := false, notice := false })

def exactNoticeContent (stream : String) : Content :=
  encode (.subscribeReply { subId, status := .accepted, reason := none, leaseMs, stream, seq := 0,
                            historyLost := false, topics := [], patternFull := false,
                            notice := true })

def patternReplyContent (topics : List TopicReply)
    (patternFull notice : Bool) : Content :=
  encode (.subscribeReply { subId, status := .accepted, reason := none, leaseMs, stream := "",
                            seq := 0, historyLost := false, topics, patternFull, notice })

def replyFrame (recipient subId : String) (content : Content) : SubscriptionFrame :=
  { recipient, content, delivery := .superseding (replyKey subId) }

def updateFrame (recipient subId : String) (topic : Option String) (stream : String) (seq : ℕ)
    (key : Option String) (body : String) (snapshot : Bool) : SubscriptionFrame where
  recipient := recipient
  content := encode (.update { subId, topic, stream, seq, key, body, snapshot })
  delivery :=
    match key with
    -- At most one value per key waits for an absent subscriber.
    | some key =>
      .liveOrSuperseding (match topic with
        | some topic => "upd:" ++ subId ++ ":" ++ topic ++ ":" ++ key
        | none => "upd:" ++ subId ++ ":" ++ key)
    | none => .reliable

def unsubscribeFrame (recipient subId reason : String) : SubscriptionFrame :=
  { recipient, content := encode (.unsubscribe { subId, reason }), delivery := .reliable }

structure CaughtUp where
  /-- The position the subscriber may take itself to be at before the frames
  that follow. -/
  baseline : ℕ
  historyLost : Bool

def ProviderSub.topicFrame (subId name : String) (topic : Topic) (seq : ℕ)
    (key : Option String) (body : String) (snapshot : Bool) : SubscriptionFrame :=
  updateFrame sub.subscriber subId (sub.label name) topic.stream seq key body snapshot

def catchUpLatest (resync fresh : Bool) (now : ℕ) :
    ProviderSub × List SubscriptionFrame × CaughtUp :=
  let full := fresh || resync || match sameStream with
    | some position => position.digest != topic.digest sub.keys
    | none => true
  if full then
    let frames := (topic.filtered sub.keys).map fun e =>
      sub.topicFrame subId name topic e.2.1 (some e.1) e.2.2 true
    let dirty := sub.dirty.filter fun d => d.1 ≠ name
    -- The interval runs from a value sent, not from an empty snapshot.
    let lastSent := if frames = [] then sub.lastSent else some now
    ({ sub with dirty, lastSent }, frames, ⟨topic.lastSeq, false⟩)
  else (sub, [], ⟨topic.lastSeq, false⟩)

def replayAfter
    (after : ℕ) : List SubscriptionFrame :=
  (topic.log.filter fun e => after < e.1).map fun e =>
    sub.topicFrame subId name topic e.1 none e.2 false

def fromCheckpoint :
    Option (List SubscriptionFrame × CaughtUp) :=
  match topic.checkpoint with
  | none => none
  | some (seq, body) =>
    if topic.bufferCoversAfter seq then
      some (sub.topicFrame subId name topic seq none body true ::
        replayAfter subId sub name topic seq, ⟨seq, false⟩)
    else none

def catchUpLog (resync : Bool) : List SubscriptionFrame × CaughtUp :=
  let checkpoint := fromCheckpoint subId sub name topic
  match (if resync then checkpoint else none), sameStream with
  | some caught, _ => caught
  | none, some position =>
    if topic.bufferCoversAfter position.seq then
      let baseline := min position.seq topic.lastSeq
      (replayAfter subId sub name topic baseline, ⟨baseline, false⟩)
    else checkpoint.getD ([], ⟨topic.lastSeq, true⟩)
  | none, none => checkpoint.getD ([], ⟨topic.lastSeq, false⟩)

def catchUpTopic (resync fresh : Bool) (now : ℕ) :
    ProviderSub × List SubscriptionFrame × CaughtUp :=
  match topic.mode with
  | .latest => catchUpLatest subId sub name topic sameStream resync fresh now
  | .log => (sub, catchUpLog subId sub name topic sameStream resync)

end OfflineProtocol
