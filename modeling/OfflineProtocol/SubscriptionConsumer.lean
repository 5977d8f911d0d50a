import Mathlib.Data.Finset.Max
import OfflineProtocol.KeyedTable
import OfflineProtocol.ProviderTopic

/-! The consumer half of subscriptions: what this device has subscribed to, how
far it has got in each topic, and when each subscription must be renewed. The
minted subscription ids and the order a hash map is met in are part of each
call. -/
namespace OfflineProtocol
open KeyedTable

def pendingSends : ℕ := 4

structure Track where
  stream : Option String
  keys : Table String ℕ
  contiguous : ℕ
  seenAhead : Finset ℕ
  retired : List String

namespace Track
variable (t : Track) (stream : String) (seq : ℕ)

def new : Track := { stream := none, keys := ∅, contiguous := 0, seenAhead := ∅, retired := [] }

def position (mode : SubscriptionMode) : Option (String × ℕ × UInt64) :=
  match t.stream with
  | none => none
  | some stream =>
    match mode with
    | .latest => some (stream, (values t.keys).foldl max 0, digest (sorted t.keys))
    | .log => some (stream, t.contiguous, 0)

def forget : Track := { t with keys := ∅, contiguous := 0, seenAhead := ∅ }

def resetStream : Track :=
  let retired := match t.stream with
    | none => t.retired
    | some previous =>
      let retired := t.retired.filter (· ≠ previous) ++ [previous]
      if maxRetiredPerTopic < retired.length then retired.tail else retired
  { t with stream := some stream, retired }.forget

def onStream : Track :=
  if t.stream = some stream then t else t.resetStream stream

def isRetired : Bool := stream ∈ t.retired

/-- The loop of `advance`: each turn takes the next seq out of `seenAhead`, so it
ends within as many turns as there are seqs. -/
def advanceLoop : ℕ → ℕ → Finset ℕ → ℕ × Finset ℕ
  | 0, contiguous, seenAhead => (contiguous, seenAhead)
  | fuel + 1, contiguous, seenAhead =>
    if contiguous + 1 ∈ seenAhead then
      advanceLoop fuel (contiguous + 1) (seenAhead.erase (contiguous + 1))
    else (contiguous, seenAhead)

def advance : Track :=
  let (contiguous, seenAhead) := advanceLoop t.seenAhead.card t.contiguous t.seenAhead
  { t with contiguous, seenAhead := seenAhead.filter (contiguous < ·) }

def takeLatest (key : String) (seq : ℕ) : Track × Bool :=
  match get t.keys key with
  | some held => if seq ≤ held then (t, false) else ({ t with keys := t.keys.insert key seq }, true)
  | none =>
    if maxConsumerTrackedKeys ≤ t.keys.entries.length then (t, false)
    else ({ t with keys := t.keys.insert key seq }, true)

def takeCheckpoint : Track × Bool :=
  if seq < t.contiguous then (t, false) else ({ t with contiguous := seq }.advance, true)

def takeLog : Track × Bool × Bool :=
  if seq ≤ t.contiguous ∨ seq ∈ t.seenAhead then (t, false, false)
  else
    let seenAhead := insert seq t.seenAhead
    if maxLogSeenAhead < seenAhead.card then
      -- The gap below will not fill in time: the position moves past it.
      match seenAhead.min with
      | some lowest =>
        ({ t with contiguous := lowest, seenAhead := seenAhead.erase lowest }.advance, true, true)
      | none => ({ t with seenAhead }.advance, true, false)
    else ({ t with seenAhead }.advance, true, false)

def raise : Track := { t with contiguous := max t.contiguous seq }.advance

end Track

structure ConsumerSub where
  provider : String
  serviceId : String
  topic : String
  mode : SubscriptionMode
  params : String
  filter : List String
  state : SubscriptionState
  sent : Bool
  createdAt : ℕ
  resendAt : Option ℕ
  tracks : Table String Track
  lease : ℕ
  nextRenewal : Option ℕ
  renewalOutstanding : Bool
  unanswered : ℕ
  pausedSince : Option ℕ
  resyncPending : Bool
  resyncResume : Option ResumePosition
  patternFullReported : Bool

namespace ConsumerSub
variable (sub : ConsumerSub)

def isPattern : Bool := isTopicPattern sub.topic

def exactPosition : Option (String × ℕ × UInt64) :=
  match get sub.tracks sub.topic with
  | some track => track.position sub.mode
  | none => none

def topicPositions : List TopicPosition :=
  (sorted sub.tracks).filterMap fun e =>
    (e.2.position sub.mode).map fun (stream, seq, digest) => ⟨e.1, stream, seq, digest⟩

def resume : Option ResumePosition :=
  if sub.isPattern then
    if sub.state = .pending then none
    else some { stream := "", seq := 0, digest := 0, topics := sub.topicPositions }
  else
    match sub.exactPosition with
    | some (stream, seq, digest) => some { stream, seq, digest, topics := [] }
    | none =>
      if sub.state = .pending then none
      -- Answered before the topic was published, and nothing heard of it since.
      else some { stream := "", seq := 0, digest := digest [], topics := [] }

def renewalResume : Option ResumePosition :=
  if sub.resyncPending then sub.resyncResume else sub.resume

def setTrack (topic : String) (track : Track) : ConsumerSub :=
  { sub with tracks := sub.tracks.insert topic track }

def track (sub : ConsumerSub) (topic : String) : Option Track :=
  if topicMatches sub.topic topic ∧ isTopicPattern topic = false ∧ (validateTopic topic).toBool then
    match get sub.tracks topic with
    | some track => some track
    | none => if maxPatternTopics ≤ sub.tracks.entries.length then none else some .new
  else none

end ConsumerSub

structure SubscribeOptions where
  mode : SubscriptionMode
  params : String
  keys : List String

structure Consumer where
  subs : Table String ConsumerSub
  lease : ℕ
  pendingTimeout : ℕ
  maxPause : ℕ

variable (subId : String) (sub : ConsumerSub)

def subscribeFrame (resume : Option ResumePosition) :
    SubscriptionFrame where
  recipient := sub.provider
  content := encode (.subscribe {
    subId, serviceId := sub.serviceId, topic := sub.topic, mode := sub.mode, params := sub.params,
    keys := sub.filter, leaseMs := asMillis sub.lease, resume, resync := sub.resyncPending })
  delivery := .superseding ("sub:" ++ subId)

def consumerChanged (state : SubscriptionState)
    (reason : String) : ServiceEvent :=
  changed subId .consumer sub.serviceId sub.topic sub.provider state reason

def topicChanges (resets lost : List String) :
    List ServiceEvent :=
  resets.map (fun topic => changed subId .consumer sub.serviceId topic sub.provider sub.state
    "stream_reset") ++
  lost.map fun topic => changed subId .consumer sub.serviceId topic sub.provider sub.state
    "history_lost"

namespace Consumer
variable (c : Consumer) (subId : String) (sub : ConsumerSub) (order : List String)
  (content : Content) (pos : Position) (payload : SubscribeReplyPayload) (sender : String)
  (now : ℕ)

def new (lease pendingTimeout maxPause : ℕ) : Consumer :=
  { subs := ∅, lease, pendingTimeout, maxPause }

def put : Consumer :=
  { c with subs := c.subs.insert subId sub }

def setTiming (lease pendingTimeout maxPause : ℕ) : Consumer :=
  { c with lease, pendingTimeout, maxPause }

def opening (provider serviceId topic : String) (options : SubscribeOptions)
    (now : ℕ) : ConsumerSub :=
  { provider, serviceId, topic, mode := options.mode, params := options.params,
    filter := options.keys, state := .pending, sent := false, createdAt := now, resendAt := none,
    tracks := ∅, lease := c.lease, nextRenewal := none, renewalOutstanding := false,
    unanswered := 0, pausedSince := none, resyncPending := false, resyncResume := none,
    patternFullReported := false }

def already (provider serviceId topic : String) :
    Option String :=
  ((visit c.subs order).find? fun e =>
    e.2.provider = provider ∧ e.2.serviceId = serviceId ∧ e.2.topic = topic).map Prod.fst

def subscribe (subId provider serviceId topic : String)
    (options : SubscribeOptions) (now : ℕ) : Consumer × Except ServiceError SubscriptionFrame :=
  match validateSubscriptionTopic topic, validateKeyFilter options.keys options.mode with
  | .error e, _ => (c, .error e)
  | .ok (), .error e => (c, .error e)
  | .ok (), .ok () =>
    if maxSubscriptionParamsSize < options.params.utf8ByteSize then
      (c, .error (.payloadTooLarge
        ("params size " ++ toString options.params.utf8ByteSize ++ " exceeds maximum 4096")))
    else
      match c.already order provider serviceId topic with
      | some existing =>
        (c, .error (.invalidArgument ("already subscribed to this topic as " ++ existing)))
      | none =>
        if maxConsumerSubscriptions ≤ c.subs.entries.length then
          (c, .error (.invalidArgument "a device holds at most 64 subscriptions"))
        else
          let sub := c.opening provider serviceId topic options now
          (c.put subId sub, .ok (subscribeFrame subId sub none))

def markSent : Consumer :=
  { c with subs := modify c.subs subId fun sub => { sub with sent := true } }

def unsubscribe : Consumer × Option SubscriptionOutput :=
  match get c.subs subId with
  | none => (c, none)
  | some sub =>
    ({ c with subs := c.subs.erase subId },
      some { frames := if sub.sent then [unsubscribeFrame sub.provider subId "unsubscribed"] else [],
             events := [consumerChanged subId sub .ended "unsubscribed"] })

def resyncing : ConsumerSub :=
  { sub with
    renewalOutstanding := true
    resyncPending := true
    -- A second resync before the first is answered asks from the same place.
    resyncResume := if sub.resyncPending then sub.resyncResume else sub.resume
    tracks := mapValues sub.tracks fun _ track => track.forget }

def resync : Consumer × Except ServiceError SubscriptionFrame :=
  match get c.subs subId with
  | none => (c, .error (.unknownSubscription subId))
  | some sub =>
    if sub.sent ∧ sub.state ≠ .ended then
      let sub' := resyncing sub
      (c.put subId sub', .ok (subscribeFrame subId sub' sub'.resyncResume))
    else (c, .error (.unknownSubscription subId))

structure Position where
  topic : String
  stream : String
  seq : ℕ
  historyLost : Bool

def replyPositions : List Position :=
  if sub.isPattern then
    payload.topics.map fun t => ⟨t.topic, t.stream, t.seq, t.historyLost⟩
  else [⟨sub.topic, payload.stream, payload.seq, payload.historyLost⟩]

def staleAt : Bool :=
  match get sub.tracks pos.topic with
  | some track => track.isRetired pos.stream
  | none => false

def positioned (mode : SubscriptionMode) (track : Track) (pos : Position) : Track :=
  match mode with
  | .latest => track.onStream pos.stream
  | .log => (track.onStream pos.stream).raise pos.seq

def applyPosition : ConsumerSub × Bool × Bool :=
  if pos.stream = "" then (sub, false, false)
  else
    match sub.track pos.topic with
    | none => (sub, false, false)
    | some track =>
      (sub.setTrack pos.topic (positioned sub.mode track pos),
        track.stream.isSome && track.stream != some pos.stream, pos.historyLost)

def applyPositions : List Position → ConsumerSub → ConsumerSub × List String × List String
  | [], sub => (sub, [], [])
  | pos :: rest, sub =>
    let (sub, reset, lost) := applyPosition sub pos
    let (sub', resets, losts) := applyPositions rest sub
    (sub', (if reset then [pos.topic] else []) ++ resets, (if lost then [pos.topic] else []) ++ losts)

def reportFull :
    ConsumerSub × List ServiceEvent :=
  if payload.patternFull ∧ sub.isPattern ∧ sub.patternFullReported = false then
    ({ sub with patternFullReported := true }, [consumerChanged subId sub sub.state "pattern_full"])
  else (sub, [])

def answered : ConsumerSub :=
  let lease := clampLease payload.leaseMs
  { sub with lease, nextRenewal := some (now + lease / 2), renewalOutstanding := false,
             resyncPending := false, resyncResume := none, unanswered := 0, sent := true,
             state := .active, pausedSince := none }

def answeredEvents : List ServiceEvent :=
  match sub.state with
  | .pending => [consumerChanged subId sub .active "accepted"]
  | .paused => [consumerChanged subId sub .active "resumed"]
  | _ => []

def accepted :
    ConsumerSub × List ServiceEvent :=
  let positions := replyPositions sub payload
  -- An exact subscription's reply naming a retired stream is stale as a whole.
  if sub.isPattern = false ∧ positions.any (staleAt sub) then (sub, [])
  else
    let (sub, resets, lost) := applyPositions (positions.filter fun pos => !staleAt sub pos) sub
    if payload.notice ∧ sub.state ≠ .pending then
      let (sub, full) := reportFull subId sub payload
      (sub, full ++ topicChanges subId sub resets lost)
    else
      let events := answeredEvents subId sub
      let (sub, full) := reportFull subId (answered sub payload now) payload
      (sub, events ++ full ++ topicChanges subId sub resets lost)

def handleReply :
    Consumer × SubscriptionOutput :=
  match content.subscribeReply? with
  | none => (c, ∅)
  | some payload =>
    match get c.subs payload.subId with
    | none => (c, ∅)
    | some sub =>
      if sub.provider = sender then
        if payload.status = .accepted then
          let (sub', events) := accepted payload.subId sub payload now
          (c.put payload.subId sub', ⟨[], events⟩)
        else
          let reason := match payload.reason with
            | some reason => clampReason reason
            | none => payload.status.asStr
          ({ c with subs := c.subs.erase payload.subId },
            ⟨[], [consumerChanged payload.subId sub .ended reason]⟩)
      else (c, ∅)

def updateTopic (payload : UpdatePayload) : Option String :=
  if sub.isPattern then payload.topic else some sub.topic

def keyPasses (payload : UpdatePayload) : Bool :=
  match payload.key with
  | some key => (validateKey key).toBool && keyMatches sub.filter key
  | none => true

def takeUpdate (mode : SubscriptionMode) (track : Track) (payload : UpdatePayload) :
    Track × Option (Bool × Bool) :=
  let track := track.onStream payload.stream
  match mode with
  | .latest =>
    match payload.key with
    | none => (track, none)
    | some key =>
      let (track, fresh) := track.takeLatest key payload.seq
      (track, some (fresh, false))
  | .log =>
    if payload.snapshot then
      let (track, fresh) := track.takeCheckpoint payload.seq
      (track, some (fresh, false))
    else
      let (track, fresh, gapGivenUp) := track.takeLog payload.seq
      (track, some (fresh, gapGivenUp))

def receive (topic : String) (payload : UpdatePayload)
    (sender : String) : ConsumerSub × List ServiceEvent :=
  match sub.track topic with
  | none => (sub, [])
  | some track =>
    let change reason := changed subId .consumer sub.serviceId topic sub.provider sub.state reason
    if track.isRetired payload.stream then (sub.setTrack topic track, [])
    else
      let reset := track.stream.isSome && track.stream != some payload.stream
      let (track', taken) := takeUpdate sub.mode track payload
      (sub.setTrack topic track',
        match taken with
        | none => []
        | some (fresh, gapGivenUp) =>
          (if reset then [change "stream_reset"] else []) ++
          (if gapGivenUp then [change "history_lost"] else []) ++
          if fresh then [.updateReceived subId sub.serviceId topic payload.key payload.seq
            payload.body payload.snapshot sender] else [])

def handleUpdate :
    Consumer × SubscriptionOutput :=
  match content.update? with
  | none => (c, ∅)
  | some payload =>
    match get c.subs payload.subId with
    | none => (c, ∅)
    | some sub =>
      if sub.provider = sender ∧ sub.state ≠ .ended then
        match updateTopic sub payload with
        | none => (c, ∅)
        | some topic =>
          if keyPasses sub payload then
            let (sub', events) := receive payload.subId sub topic payload sender
            (c.put payload.subId sub', ⟨[], events⟩)
          else (c, ∅)
      else (c, ∅)

def handleUnsubscribe :
    Consumer × Option SubscriptionOutput :=
  match content.unsubscribe? with
  | none => (c, none)
  | some payload =>
    match get c.subs payload.subId with
    | none => (c, none)
    | some sub =>
      if sub.provider = sender then
        let reason := if payload.reason = "" then "revoked" else clampReason payload.reason
        ({ c with subs := c.subs.erase payload.subId },
          some ⟨[], [consumerChanged payload.subId sub .ended reason]⟩)
      else (c, none)

def reached (deadline : Option ℕ) (now : ℕ) : Bool :=
  match deadline with
  | some dueAt => dueAt ≤ now
  | none => false

def overdue : Option String :=
  match sub.state with
  | .pending =>
    if c.pendingTimeout ≤ now - sub.createdAt then
      some (if sub.sent then "no_reply" else "session_timeout")
    else none
  | .paused =>
    match sub.pausedSince with
    | some since => if c.maxPause ≤ now - since then some "provider_unreachable" else none
    | none => none
  | _ => none

def resend :
    ConsumerSub × SubscriptionOutput :=
  let interval := c.pendingTimeout / pendingSends
  match sub.resendAt with
  | none => ({ sub with resendAt := some (now + interval) }, ∅)
  | some dueAt =>
    if dueAt ≤ now then
      let sub := { sub with resendAt := some (now + interval) }
      (sub, ⟨[subscribeFrame subId sub (if sub.resyncPending then sub.resyncResume else none)], []⟩)
    else (sub, ∅)

def unansweredNow : ℕ :=
  if sub.renewalOutstanding then sub.unanswered + 1 else sub.unanswered

def pauses : Bool :=
  maxUnansweredRenewals ≤ unansweredNow sub ∧ sub.state = .active

def renewing : ConsumerSub :=
  { sub with unanswered := unansweredNow sub,
             state := if pauses sub then .paused else sub.state,
             pausedSince := if pauses sub then some now else sub.pausedSince,
             renewalOutstanding := true,
             nextRenewal := some (now + sub.lease / 2) }

def renew : ConsumerSub × SubscriptionOutput :=
  let sub' := renewing sub now
  (sub', ⟨[subscribeFrame subId sub' sub'.renewalResume],
    if pauses sub then [consumerChanged subId sub' .paused "renewal_unanswered"] else []⟩)

def tickSub :
    ConsumerSub × SubscriptionOutput :=
  match sub.state with
  | .pending => if sub.sent then c.resend subId sub now else (sub, ∅)
  | .ended => (sub, ∅)
  | _ => if reached sub.nextRenewal now then renew subId sub now else (sub, ∅)

def tick : Consumer × SubscriptionOutput :=
  let met := visit c.subs order
  let live := met.filter fun e => (c.overdue e.2 now).isNone
  let ended := met.filterMap fun e => (c.overdue e.2 now).map fun reason => (e.1, e.2, reason)
  ({ c with subs := mapValues (retain c.subs fun _ sub => (c.overdue sub now).isNone) fun id sub =>
      (c.tickSub id sub now).1 },
    .concat (live.map fun e => (c.tickSub e.1 e.2 now).2) ++
      ⟨[], ended.map fun (id, sub, reason) => consumerChanged id sub .ended reason⟩)

def onPeerSeen (peer : String) :
    Consumer × SubscriptionOutput :=
  let seen (sub : ConsumerSub) : Bool := sub.provider = peer ∧ sub.state = .paused
  let asking (sub : ConsumerSub) : ConsumerSub := { sub with renewalOutstanding := true }
  ({ c with subs := mapValues c.subs fun _ sub => if seen sub then asking sub else sub },
    ⟨((visit c.subs order).filter fun e => seen e.2).map fun e =>
      subscribeFrame e.1 (asking e.2) (asking e.2).renewalResume, []⟩)

end Consumer

end OfflineProtocol
