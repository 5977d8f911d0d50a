import Mathlib.Algebra.GroupWithZero.Nat
import Mathlib.Data.List.Basic
import Mathlib.Data.String.Basic

/-! What a subscription provider and a subscription consumer exchange: the four
payloads, the frames that carry them, the application's events, and the checks
both sides make on topics, keys and filters. Durations and instants are counted
in nanoseconds. -/
namespace OfflineProtocol

def maxServicePayloadSize : ℕ := 131072
def maxServiceBodySize : ℕ := 65536
def maxSubscriptionTopicLen : ℕ := 128
def maxSubscriptionKeyLen : ℕ := 256
def maxSubscriptionFilterKeys : ℕ := 32
def maxPatternTopics : ℕ := 64
def maxSubscriptionParamsSize : ℕ := 4096
def maxSubscriptionReasonLen : ℕ := 256
def maxProviderSubscriptions : ℕ := 256
def maxSubscriptionsPerPeer : ℕ := 16
def maxConsumerSubscriptions : ℕ := 64
def maxLatestKeys : ℕ := 256
def maxLatestBytes : ℕ := 256 * 1024
def maxConsumerTrackedKeys : ℕ := 4 * maxLatestKeys
def maxLogEntries : ℕ := 256
def maxLogBytes : ℕ := 512 * 1024
def maxLogSeenAhead : ℕ := maxLogEntries
def minSubscriptionLeaseMs : ℕ := 30000
def maxSubscriptionLeaseMs : ℕ := 600000
def maxUnansweredRenewals : ℕ := 3
def maxRetiredPerTopic : ℕ := 4
def maxRetiredPerSubscriber : ℕ := maxRetiredPerTopic * maxSubscriptionsPerPeer
def maxRetiredSubIds : ℕ := maxRetiredPerTopic * maxProviderSubscriptions

def fromMillis (ms : ℕ) : ℕ := ms * 1000000

def asMillis (duration : ℕ) : ℕ := duration / 1000000

inductive SubscriptionMode
  | latest
  | log
  deriving DecidableEq

inductive SubscribeStatus
  | accepted
  | rejected
  | notFound
  | modeMismatch
  | full
  deriving DecidableEq

def SubscribeStatus.asStr : SubscribeStatus → String
  | .accepted => "accepted"
  | .rejected => "rejected"
  | .notFound => "not_found"
  | .modeMismatch => "mode_mismatch"
  | .full => "full"

structure TopicPosition where
  topic : String
  stream : String
  seq : ℕ
  digest : UInt64

structure ResumePosition where
  stream : String
  seq : ℕ
  digest : UInt64
  topics : List TopicPosition

structure TopicReply where
  topic : String
  stream : String
  seq : ℕ
  historyLost : Bool

structure SubscribePayload where
  subId : String
  serviceId : String
  topic : String
  mode : SubscriptionMode
  params : String
  keys : List String
  leaseMs : ℕ
  resume : Option ResumePosition
  resync : Bool

structure SubscribeReplyPayload where
  subId : String
  status : SubscribeStatus
  reason : Option String
  leaseMs : ℕ
  stream : String
  seq : ℕ
  historyLost : Bool
  topics : List TopicReply
  patternFull : Bool
  notice : Bool

structure UpdatePayload where
  subId : String
  topic : Option String
  stream : String
  seq : ℕ
  key : Option String
  body : String
  snapshot : Bool

structure UnsubscribePayload where
  subId : String
  reason : String

/-! ### Encoded lengths

A payload travels as JSON. The receiving side reads a frame only when its JSON
is within `maxServicePayloadSize`, so the length of the encoding matters: an
escaped character takes two bytes, or six. -/

namespace Json

def charLen (c : Char) : ℕ :=
  if c = '"' ∨ c = '\\' ∨ c.toNat = 8 ∨ c.toNat = 9 ∨ c.toNat = 10 ∨ c.toNat = 12 ∨
      c.toNat = 13 then 2
  else if c.toNat < 32 then 6
  else c.utf8Size

def text (s : String) : ℕ := 2 + (s.toList.map charLen).sum

def number (n : ℕ) : ℕ := (Nat.toDigits 10 n).length

def flag (b : Bool) : ℕ := if b then 4 else 5

def object (fields : List (String × ℕ)) : ℕ :=
  2 + (fields.map fun f => f.1.utf8ByteSize + 3 + f.2).sum + (fields.length - 1)

def array (items : List ℕ) : ℕ := 2 + items.sum + (items.length - 1)

def optional {α : Type} (name : String) (len : α → ℕ) : Option α → List (String × ℕ)
  | none => []
  | some a => [(name, len a)]

def nonempty {α : Type} (name : String) (len : α → ℕ) (items : List α) : List (String × ℕ) :=
  if items = [] then [] else [(name, array (items.map len))]

def flagged (name : String) (b : Bool) : List (String × ℕ) :=
  if b then [(name, flag true)] else []

end Json

def SubscriptionMode.asStr : SubscriptionMode → String
  | .latest => "latest"
  | .log => "log"

def TopicPosition.jsonLen (p : TopicPosition) : ℕ :=
  Json.object [("topic", Json.text p.topic), ("stream", Json.text p.stream),
    ("seq", Json.number p.seq), ("digest", Json.number p.digest.toNat)]

def ResumePosition.jsonLen (p : ResumePosition) : ℕ :=
  Json.object ([("stream", Json.text p.stream), ("seq", Json.number p.seq),
    ("digest", Json.number p.digest.toNat)] ++
    Json.nonempty "topics" TopicPosition.jsonLen p.topics)

def TopicReply.jsonLen (r : TopicReply) : ℕ :=
  Json.object [("topic", Json.text r.topic), ("stream", Json.text r.stream),
    ("seq", Json.number r.seq), ("history_lost", Json.flag r.historyLost)]

def SubscribePayload.jsonLen (p : SubscribePayload) : ℕ :=
  Json.object ([("v", 1), ("sub_id", Json.text p.subId), ("service_id", Json.text p.serviceId),
    ("topic", Json.text p.topic), ("mode", Json.text p.mode.asStr),
    ("params", Json.text p.params)] ++ Json.nonempty "keys" Json.text p.keys ++
    [("lease_ms", Json.number p.leaseMs)] ++
    Json.optional "resume" ResumePosition.jsonLen p.resume ++ [("resync", Json.flag p.resync)])

def SubscribeReplyPayload.jsonLen (p : SubscribeReplyPayload) : ℕ :=
  Json.object ([("v", 1), ("sub_id", Json.text p.subId), ("status", Json.text p.status.asStr)] ++
    Json.optional "reason" Json.text p.reason ++
    [("lease_ms", Json.number p.leaseMs), ("stream", Json.text p.stream),
      ("seq", Json.number p.seq), ("history_lost", Json.flag p.historyLost)] ++
    Json.nonempty "topics" TopicReply.jsonLen p.topics ++
    Json.flagged "pattern_full" p.patternFull ++ Json.flagged "notice" p.notice)

def UpdatePayload.jsonLen (p : UpdatePayload) : ℕ :=
  Json.object ([("v", 1), ("sub_id", Json.text p.subId)] ++
    Json.optional "topic" Json.text p.topic ++
    [("stream", Json.text p.stream), ("seq", Json.number p.seq)] ++
    Json.optional "key" Json.text p.key ++
    [("body", Json.text p.body), ("snapshot", Json.flag p.snapshot)])

def UnsubscribePayload.jsonLen (p : UnsubscribePayload) : ℕ :=
  Json.object [("v", 1), ("sub_id", Json.text p.subId), ("reason", Json.text p.reason)]

inductive Wire
  | subscribe (payload : SubscribePayload)
  | subscribeReply (payload : SubscribeReplyPayload)
  | update (payload : UpdatePayload)
  | unsubscribe (payload : UnsubscribePayload)
  | malformed

/-- A frame's text: what it parses to and how long the JSON after its prefix
is. A foreign peer may pad the JSON, so the length is its own. -/
structure Content where
  wire : Wire
  len : ℕ

namespace Content

def decode (content : Content) : Wire :=
  if maxServicePayloadSize < content.len then .malformed else content.wire

def subscribe? (content : Content) : Option SubscribePayload :=
  match content.decode with
  | .subscribe payload => some payload
  | _ => none

def subscribeReply? (content : Content) : Option SubscribeReplyPayload :=
  match content.decode with
  | .subscribeReply payload => some payload
  | _ => none

def update? (content : Content) : Option UpdatePayload :=
  match content.decode with
  | .update payload => some payload
  | _ => none

def unsubscribe? (content : Content) : Option UnsubscribePayload :=
  match content.decode with
  | .unsubscribe payload => some payload
  | _ => none

end Content

def encode : Wire → Content
  | .subscribe p => ⟨.subscribe p, p.jsonLen⟩
  | .subscribeReply p => ⟨.subscribeReply p, p.jsonLen⟩
  | .update p => ⟨.update p, p.jsonLen⟩
  | .unsubscribe p => ⟨.unsubscribe p, p.jsonLen⟩
  | .malformed => ⟨.malformed, 0⟩

@[simp] lemma encode_wire (w) : (encode w).wire = w := by
  cases w <;> rfl

inductive SubscriptionDelivery
  | reliable
  | superseding (key : String)
  | liveOrSuperseding (key : String)

structure SubscriptionFrame where
  recipient : String
  content : Content
  delivery : SubscriptionDelivery

inductive SubscriptionRole
  | consumer
  | provider

inductive SubscriptionState
  | pending
  | active
  | paused
  | ended
  deriving DecidableEq

inductive ServiceEvent
  | subscribeReceived (subId serviceId topic : String) (mode : SubscriptionMode)
      (params sender : String) (renewal : Bool)
  | subscriptionChanged (subId : String) (role : SubscriptionRole) (serviceId topic peer : String)
      (state : SubscriptionState) (reason : String)
  | updateReceived (subId serviceId topic : String) (key : Option String) (seq : ℕ) (body : String)
      (snapshot : Bool) (providerPeerId : String)

structure SubscriptionOutput where
  frames : List SubscriptionFrame
  events : List ServiceEvent

namespace SubscriptionOutput

instance : EmptyCollection SubscriptionOutput := ⟨⟨[], []⟩⟩

instance : Append SubscriptionOutput := ⟨fun a b => ⟨a.frames ++ b.frames, a.events ++ b.events⟩⟩

def concat (outs : List SubscriptionOutput) : SubscriptionOutput :=
  ⟨outs.flatMap frames, outs.flatMap events⟩

@[simp] lemma frames_empty : (∅ : SubscriptionOutput).frames = [] := rfl

@[simp] lemma frames_append (a b : SubscriptionOutput) :
    (a ++ b).frames = a.frames ++ b.frames := rfl

lemma mem_frames_concat : f ∈ (concat outs).frames ↔ ∃ o ∈ outs, f ∈ o.frames := List.mem_flatMap

end SubscriptionOutput

inductive ServiceError
  | payloadTooLarge (message : String)
  | invalidArgument (message : String)
  | unknownSubscription (subId : String)

inductive Admission
  | accept
  | ask
  | reject
  deriving DecidableEq

def stripStar (s : String) : Option String :=
  if s.toList.getLast? = some '*' then some (String.ofList s.toList.dropLast) else none

def startsWith (s stem : String) : Bool := stem.toList.isPrefixOf s.toList

def topicChar (c : Char) : Bool :=
  c.isAlphanum || c == '.' || c == '_' || c == '-' || c == '/'

def validateTopic (topic : String) : Except ServiceError Unit :=
  if topic ≠ "" ∧ topic.utf8ByteSize ≤ maxSubscriptionTopicLen ∧ topic.toList.all topicChar then
    .ok ()
  else .error (.invalidArgument "topic must be 1 to 128 bytes of A-Z a-z 0-9 . _ - /")

def isTopicPattern (topic : String) : Bool := (stripStar topic).isSome

def topicMatches (subscribed topic : String) : Bool :=
  match stripStar subscribed with
  | some stem => startsWith topic stem
  | none => subscribed == topic

def validateSubscriptionTopic (topic : String) : Except ServiceError Unit :=
  match stripStar topic with
  | none => validateTopic topic
  | some stem =>
    if stem = "" then .ok ()
    else if topic.utf8ByteSize ≤ maxSubscriptionTopicLen then validateTopic stem
    else validateTopic topic

def validateKey (key : String) : Except ServiceError Unit :=
  if key = "" ∨ maxSubscriptionKeyLen < key.utf8ByteSize ∨ '\x00' ∈ key.toList then
    .error (.invalidArgument "key must be 1 to 256 bytes with no zero byte")
  else .ok ()

def validateFilterEntry (entry : String) : Except ServiceError Unit :=
  match stripStar entry with
  | none => validateKey entry
  | some stem =>
    if '*' ∈ stem.toList then
      .error (.invalidArgument "a key filter entry has at most one `*`, at its end")
    else if entry.utf8ByteSize ≤ maxSubscriptionKeyLen ∧ '\x00' ∉ stem.toList then .ok ()
    else validateKey entry

def validateKeyFilter (keys : List String) (mode : SubscriptionMode) : Except ServiceError Unit :=
  if keys = [] then .ok ()
  else if mode ≠ .latest then
    .error (.invalidArgument "a key filter applies to a `latest` subscription only")
  else if maxSubscriptionFilterKeys < keys.length then
    .error (.invalidArgument "a key filter holds at most 32 entries")
  else keys.forM validateFilterEntry

def keyMatches (filter : List String) (key : String) : Bool :=
  filter.isEmpty || filter.any fun entry =>
    match stripStar entry with
    | some stem => startsWith key stem
    | none => entry == key

def takeBytes : ℕ → List Char → List Char
  | _, [] => []
  | budget, c :: cs =>
    if c.utf8Size ≤ budget then c :: takeBytes (budget - c.utf8Size) cs else []

def clampReason (reason : String) : String :=
  if reason.utf8ByteSize ≤ maxSubscriptionReasonLen then reason
  else String.ofList (takeBytes maxSubscriptionReasonLen reason.toList)

def fnvFeed (hash : UInt64) (byte : UInt8) : UInt64 := (hash ^^^ byte.toUInt64) * 0x00000100000001b3

def seqBytes (seq : ℕ) : List UInt8 :=
  [7, 6, 5, 4, 3, 2, 1, 0].map fun i => UInt8.ofNat (seq / 256 ^ i)

def digest (pairs : List (String × ℕ)) : UInt64 :=
  (pairs.flatMap fun (key, seq) => key.toByteArray.data.toList ++ 0 :: seqBytes seq).foldl fnvFeed
    0xcbf29ce484222325

def changed (subId : String) (role : SubscriptionRole) (serviceId topic peer : String)
    (state : SubscriptionState) (reason : String) : ServiceEvent :=
  .subscriptionChanged subId role serviceId topic peer state reason

end OfflineProtocol
