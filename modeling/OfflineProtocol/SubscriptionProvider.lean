import OfflineProtocol.ProviderTopic

/-! The provider half of subscriptions: who is subscribed, which ids are over for good, and the
per-topic state that catches a subscriber up. What the registry, the policy and the hash maps
answer is part of each call. -/
namespace OfflineProtocol
open KeyedTable

structure Retired where
  subscriber : String
  serviceId : String
  topic : String
  subId : String

structure Provider where
  topics : Table (String × String) Topic
  subs : Table String ProviderSub
  retired : List Retired
  minUpdateInterval : ℕ
  approvalTimeout : ℕ

/-- The orders one call meets its hash maps in: the subscriptions, and for each
subscription retired the subscribers counted for it. -/
structure HashOrder where
  subs : List String
  counts : String → List String

structure PublishOutcome where
  subscribers : ℕ
  coalesced : ℕ

namespace Provider
variable (p : Provider) (retired : List Retired) (id : String) (order : HashOrder)
  (payload : SubscribePayload) (u : Update) (subId : String) (sub : ProviderSub)
  (resume : Option ResumePosition) (sender : String) (resync fresh : Bool) (now : ℕ)
  (verdict : Admission)

def maxSubIdLen : ℕ := 64

def new (minUpdateInterval approvalTimeout : ℕ) : Provider :=
  { topics := ∅, subs := ∅, retired := [], minUpdateInterval, approvalTimeout }

def sameTriple (r : Retired) : Bool :=
  r.subscriber = sub.subscriber ∧ r.serviceId = sub.serviceId ∧ r.topic = sub.topic

def remembered (subscriber : String) : ℕ :=
  retired.countP fun r => r.subscriber = subscriber

def heaviest (order : List String) : Option String :=
  let names := (retired.map Retired.subscriber).dedup
  let met := order.dedup.filter (· ∈ names) ++ names.filter (· ∉ order)
  met.foldl (fun best s =>
    match best with
    | none => some s
    | some b => if remembered retired b ≤ remembered retired s then some s else some b) none

def forgetOldest (bound : ℕ) (which : Retired → Bool) : List Retired :=
  if bound ≤ retired.countP which then retired.eraseP which else retired

def forgetHeaviest (order : List String) : List Retired :=
  if maxRetiredSubIds ≤ retired.length then
    match heaviest retired order with
    | some heaviest => retired.eraseP fun r => r.subscriber = heaviest
    | none => retired
  else retired

def retireEntry
    (order : List String) : List Retired :=
  let retired := forgetOldest retired maxRetiredPerTopic (sameTriple sub)
  let retired := forgetOldest retired maxRetiredPerSubscriber fun r => r.subscriber = sub.subscriber
  forgetHeaviest retired order ++ [⟨sub.subscriber, sub.serviceId, sub.topic, subId⟩]

def retire : Provider :=
  { p with retired := retireEntry p.retired subId sub (order.counts subId) }

def isRetired (subscriber subId : String) : Bool :=
  p.retired.any fun r => r.subscriber = subscriber ∧ r.subId = subId

def endSub : Provider :=
  { p with subs := p.subs.erase subId }.retire order subId sub

def endEach (p : Provider) (order : HashOrder) (ended : String → ProviderSub → SubscriptionOutput) :
    List String → Provider × SubscriptionOutput
  | [] => (p, ∅)
  | id :: ids =>
    match get p.subs id with
    | none => endEach p order ended ids
    | some sub =>
      let (p', out) := endEach (p.endSub order id sub) order ended ids
      (p', ended id sub ++ out)

def idsWhere (which : ProviderSub → Bool) : List String :=
  ((visit p.subs order.subs).filter fun e => which e.2).map Prod.fst

def reportPatternFull (answered : Option String) :
    Provider × SubscriptionOutput :=
  let unreported (sub : ProviderSub) : Bool :=
    sub.admitted && sub.patternFull && !sub.patternFullReported
  let report (subId : String) (sub : ProviderSub) : SubscriptionOutput :=
    if unreported sub then
      { frames :=
          if answered = some subId then []
          else [{ recipient := sub.subscriber,
                  content := patternReplyContent subId (asMillis sub.lease) [] true true,
                  delivery := .reliable }],
        events := [providerChanged subId sub .active "pattern_full"] }
    else ∅
  ({ p with subs := mapValues p.subs fun _ sub =>
      if unreported sub then { sub with patternFullReported := true } else sub },
    .concat ((visit p.subs order.subs).map fun e => report e.1 e.2))

def unheardPosition (stream : String) : ResumePosition :=
  { stream, seq := 0, digest := digest [], topics := [] }

def exactPosition (topic : Topic) (resume : Option ResumePosition) : Option ResumePosition :=
  match resume with
  | none => none
  | some position =>
    if position.stream = "" then some (unheardPosition topic.stream)
    else if position.stream = topic.stream then some position
    else none

def answerExact :
    Provider × SubscriptionOutput :=
  let reply stream seq lost := replyFrame sub.subscriber subId
    (replyContent subId .accepted none (asMillis sub.lease) stream seq lost)
  match get p.topics (sub.serviceId, sub.topic) with
  -- Not yet published: accepted with no stream.
  | none => (p, ⟨[reply "" 0 false], []⟩)
  | some topic =>
    let (sub', catchUp, caught) :=
      catchUpTopic subId sub sub.topic topic (exactPosition topic resume) resync fresh now
    ({ p with subs := p.subs.insert subId sub' },
      ⟨reply topic.stream caught.baseline caught.historyLost :: catchUp, []⟩)

def patternPosition (name : String) (topic : Topic) (resume : Option ResumePosition)
    (fresh : Bool) : Option ResumePosition :=
  match resume with
  | none => none
  | some position =>
    match position.topics.find? fun held => held.topic = name with
    | some held =>
      if held.stream = topic.stream then
        some { stream := held.stream, seq := held.seq, digest := held.digest, topics := [] }
      else none
    | none => if fresh then none else some (unheardPosition topic.stream)

def catchUpFollowed (p : Provider) (subId : String) (resume : Option ResumePosition)
    (resync fresh : Bool) (now : ℕ) :
    List String → ProviderSub → ProviderSub × List TopicReply × List SubscriptionFrame
  | [], sub => (sub, [], [])
  | name :: names, sub =>
    match get p.topics (sub.serviceId, name) with
    | none => catchUpFollowed p subId resume resync fresh now names sub
    | some topic =>
      let (sub', frames, caught) :=
        catchUpTopic subId sub name topic (patternPosition name topic resume fresh) resync fresh now
      let (sub'', replies, rest) := catchUpFollowed p subId resume resync fresh now names sub'
      (sub'', ⟨name, topic.stream, caught.baseline, caught.historyLost⟩ :: replies, frames ++ rest)

def answerPattern :
    Provider × SubscriptionOutput :=
  let sub := sub.followExisting p.topics
  let (sub', replies, catchUp) :=
    catchUpFollowed p subId resume resync fresh now sub.followed sub
  let reply := replyFrame sub.subscriber subId
    (patternReplyContent subId (asMillis sub.lease) replies sub'.patternFull false)
  let (p', full) := { p with subs := p.subs.insert subId sub' }.reportPatternFull order (some subId)
  (p', ⟨reply :: catchUp, []⟩ ++ full)

def answer : Provider × SubscriptionOutput :=
  match get p.subs subId with
  | none => (p, ∅)
  | some sub =>
    if sub.isPattern then p.answerPattern order subId sub resume resync fresh now
    else p.answerExact subId sub resume resync fresh now

def refuse (sender subId : String) (status : SubscribeStatus) (reason : String) :
    SubscriptionFrame :=
  replyFrame sender subId (replyContent subId status (some reason) 0 "" 0 false)

def renewed (payload : SubscribePayload) (now : ℕ) : ProviderSub :=
  let lease := clampLease payload.leaseMs
  { sub with lease, leaseUntil := now + lease, keys := payload.keys }

def stillAsked (payload : SubscribePayload) : ProviderSub :=
  { sub with pendingResume := payload.resume, pendingResync := sub.pendingResync || payload.resync }

def askedAgain (payload : SubscribePayload) (now : ℕ) : ProviderSub :=
  { sub with admitted := false, askedAt := now, pendingResume := payload.resume,
             pendingResync := payload.resync, dirty := [] }

def renewHeld : Provider × SubscriptionOutput :=
  let subId := payload.subId
  let sub' := renewed sub payload now
  if verdict = .reject then
    (p.endSub order subId sub,
      { frames := [if sub.admitted then unsubscribeFrame sender subId "policy"
                   else refuse sender subId .rejected "policy"],
        events := [providerChanged subId sub .ended "policy"] })
  else if sub'.admitted = false then
    ({ p with subs := p.subs.insert subId (stillAsked sub' payload) }, ∅)
  else if verdict = .ask ∧ sub'.admittedByApp = false then
    ({ p with subs := p.subs.insert subId (askedAgain sub' payload now) },
      ⟨[], [.subscribeReceived subId sub.serviceId sub.topic sub.mode sub.params sender true]⟩)
  else
    { p with subs := p.subs.insert subId sub' }.answer order subId payload.resume payload.resync
      false now

/-- The subscription a new frame opens, before the application or the first
answer sees it. -/
def opened : ProviderSub :=
  let lease := clampLease payload.leaseMs
  ProviderSub.followExisting
    { subscriber := sender, serviceId := payload.serviceId, topic := payload.topic,
      mode := payload.mode, params := payload.params, keys := payload.keys, followed := [],
      admitted := verdict = .accept, admittedByApp := false, askedAt := now, lease,
      leaseUntil := now + lease, pendingResume := none, pendingResync := false, lastSent := none,
      dirty := [], patternFull := false, patternFullReported := false } p.topics

def sameTopic (sub : ProviderSub) : Bool :=
  sub.subscriber = sender ∧ sub.serviceId = payload.serviceId ∧ sub.topic = payload.topic

def openNew : Provider × SubscriptionOutput :=
  let subId := payload.subId
  let fromSender := (values p.subs).countP fun s => s.subscriber = sender
  if maxProviderSubscriptions ≤ p.subs.entries.length ∨ maxSubscriptionsPerPeer ≤ fromSender then
    (p, ⟨[refuse sender subId .full "full"], []⟩)
  else
    let sub := p.opened payload sender now verdict
    match verdict with
    | .reject => (p, ⟨[refuse sender subId .rejected "policy"], []⟩)
    | .ask =>
      ({ p with subs := p.subs.insert subId { sub with
          pendingResume := payload.resume
          pendingResync := payload.resync } },
        ⟨[], [.subscribeReceived subId payload.serviceId payload.topic payload.mode payload.params
          sender payload.resume.isSome]⟩)
    | .accept =>
      let (p', out) := { p with subs := p.subs.insert subId sub }.answer order subId payload.resume
        payload.resync true now
      (p', ⟨[], [providerChanged subId sub .active "accepted"]⟩ ++ out)

def modeMismatched : Bool :=
  match get p.topics (payload.serviceId, payload.topic) with
  | some topic => !isTopicPattern payload.topic && topic.mode != payload.mode
  | none => false

def endedReplaced : SubscriptionOutput :=
  ⟨[], [providerChanged id sub .ended "replaced"]⟩

def subscribeNew : Provider × SubscriptionOutput :=
  let replaced := p.idsWhere order (sameTopic payload sender)
  if p.modeMismatched payload then
    (p, ⟨[refuse sender payload.subId .modeMismatch "mode_mismatch"], []⟩)
  else if replaced ≠ [] ∧ payload.resume.isSome then (p, ∅)
  else
    let (p₁, ended) := p.endEach order endedReplaced replaced
    let (p₂, out) := p₁.openNew order payload sender now verdict
    (p₂, ended ++ out)

def invalidSubscription : Bool :=
  !(validateSubscriptionTopic payload.topic).toBool ||
    !(validateKeyFilter payload.keys payload.mode).toBool ||
    maxSubscriptionParamsSize < payload.params.utf8ByteSize

def handleSubscribe (content : Content) (sender : String)
    (now : ℕ) (registered : String → Bool) (verdict : String → Admission) :
    Provider × SubscriptionOutput :=
  match content.subscribe? with
  | none => (p, ∅)
  | some payload =>
    if payload.subId = "" ∨ maxSubIdLen < payload.subId.utf8ByteSize then (p, ∅)
    -- A retired subscription never comes back.
    else if p.isRetired sender payload.subId then (p, ∅)
    else if invalidSubscription payload then
      (p, ⟨[refuse sender payload.subId .rejected "invalid_subscription"], []⟩)
    else if registered payload.serviceId = false then
      (p, ⟨[refuse sender payload.subId .notFound "not_found"], []⟩)
    else
      match get p.subs payload.subId with
      | some sub =>
        -- A renewal names its own subscription, and nothing else.
        if sub.subscriber = sender ∧ payload.serviceId = sub.serviceId ∧
            payload.topic = sub.topic ∧ payload.mode = sub.mode then
          p.renewHeld order payload sub sender now (verdict sub.serviceId)
        else (p, ∅)
      | none => p.subscribeNew order payload sender now (verdict payload.serviceId)

def handleUnsubscribe (content : Content) (sender : String) :
    Provider × Option SubscriptionOutput :=
  match content.unsubscribe? with
  | none => (p, none)
  | some payload =>
    match get p.subs payload.subId with
    | none => (p, none)
    | some sub =>
      if sub.subscriber = sender then
        (p.endSub order payload.subId sub,
          some ⟨[], [providerChanged payload.subId sub .ended "unsubscribed"]⟩)
      else (p, none)

def letIn : ProviderSub :=
  { sub with admitted := true, admittedByApp := true, leaseUntil := now + sub.lease,
             pendingResume := none, pendingResync := false }

def accept :
    Provider × Except ServiceError SubscriptionOutput :=
  match get p.subs subId with
  | none => (p, .error (.unknownSubscription subId))
  | some sub =>
    if sub.admitted then (p, .error (.unknownSubscription subId))
    else
      let (p', out) := { p with subs := p.subs.insert subId (letIn sub now) }.answer order subId
        sub.pendingResume sub.pendingResync true now
      (p', .ok (⟨[], [providerChanged subId sub .active "accepted"]⟩ ++ out))

def reject (subId reason : String) :
    Provider × Except ServiceError SubscriptionOutput :=
  match get p.subs subId with
  | none => (p, .error (.unknownSubscription subId))
  | some sub =>
    if sub.admitted then (p, .error (.unknownSubscription subId))
    else
      let reason := clampReason (if reason = "" then "rejected" else reason)
      (p.endSub order subId sub,
        .ok ⟨[refuse sub.subscriber subId .rejected reason],
          [providerChanged subId sub .ended "rejected"]⟩)

def «end» (subId reason : String) :
    Provider × Except ServiceError SubscriptionOutput :=
  match get p.subs subId with
  | none => (p, .error (.unknownSubscription subId))
  | some sub =>
    let reason := clampReason (if reason = "" then "revoked" else reason)
    (p.endSub order subId sub,
      .ok ⟨[unsubscribeFrame sub.subscriber subId reason],
        [providerChanged subId sub .ended "revoked"]⟩)

def endedUnregistered : SubscriptionOutput :=
  ⟨[unsubscribeFrame sub.subscriber id "service_unregistered"],
    [providerChanged id sub .ended "service_unregistered"]⟩

def serviceUnregistered (serviceId : String) :
    Provider × SubscriptionOutput :=
  let (p', out) := p.endEach order endedUnregistered
    (p.idsWhere order fun sub => sub.serviceId = serviceId)
  ({ p' with topics := retain p'.topics fun key _ => key.1 ≠ serviceId }, out)

def endedMismatched : SubscriptionOutput :=
  ⟨[refuse sub.subscriber id .modeMismatch "mode_mismatch"],
    [providerChanged id sub .ended "mode_mismatch"]⟩

def endMismatched (serviceId topicName : String)
    (mode : SubscriptionMode) : Provider × SubscriptionOutput :=
  p.endEach order endedMismatched (p.idsWhere order fun sub =>
    !sub.isPattern && sub.serviceId = serviceId && sub.topic = topicName && sub.mode != mode)

def createTopic (stream serviceId topicName : String)
    (mode : SubscriptionMode) : Provider × SubscriptionOutput :=
  match get p.topics (serviceId, topicName) with
  | some _ => (p, ∅)
  | none =>
    { p with topics := p.topics.insert (serviceId, topicName) (.new mode stream) }.endMismatched
      order serviceId topicName mode

structure Update where
  serviceId : String
  topic : String
  mode : SubscriptionMode
  stream : String
  seq : ℕ
  key : Option String
  body : String

def Update.passes (filter : List String) : Bool :=
  match u.key with
  | some key => keyMatches filter key
  | none => true

def due (interval now : ℕ) (sub : ProviderSub) : Bool :=
  match sub.lastSent with
  | some sentAt => interval ≤ now - sentAt
  | none => true

def send (interval now : ℕ) (u : Update) (subId : String) (sub : ProviderSub) :
    ProviderSub × PublishOutcome × List SubscriptionFrame :=
  let frame := updateFrame sub.subscriber subId (sub.label u.topic) u.stream u.seq u.key u.body
    false
  match u.key with
  | none => (sub, ⟨1, 0⟩, [frame])
  | some key =>
    if due interval now sub then
      ({ sub with dirty := sub.dirty.filter (· ≠ (u.topic, key)), lastSent := some now },
        ⟨1, 0⟩, [frame])
    else ({ sub with dirty := addOrdered dirtyLe (u.topic, key) sub.dirty }, ⟨1, 1⟩, [])

def publishTo (interval now : ℕ) (u : Update) (subId : String) (sub : ProviderSub) :
    ProviderSub × PublishOutcome × List SubscriptionFrame :=
  if sub.admitted ∧ sub.serviceId = u.serviceId ∧ u.passes sub.keys then
    let (sub, following) := sub.follows u.topic u.mode
    if following then send interval now u subId sub else (sub, ⟨0, 0⟩, [])
  else (sub, ⟨0, 0⟩, [])

def fanOut :
    Provider × SubscriptionOutput × PublishOutcome :=
  let step := publishTo p.minUpdateInterval now u
  let turns := (visit p.subs order.subs).map fun e => (step e.1 e.2).2
  ({ p with subs := mapValues p.subs fun id sub => (step id sub).1 },
    .concat (turns.map fun t => ⟨t.2, []⟩),
    ⟨(turns.map fun t => t.1.subscribers).sum, (turns.map fun t => t.1.coalesced).sum⟩)

def distribute :
    Provider × SubscriptionOutput × PublishOutcome :=
  let (p₁, sent, outcome) := p.fanOut order u now
  let (p₂, full) := p₁.reportPatternFull order none
  (p₂, sent ++ full, outcome)

def publishMode (key : Option String) : Except ServiceError SubscriptionMode :=
  match key with
  | some key => (validateKey key).map fun _ => .latest
  | none => .ok .log

def publish (p : Provider) (order : HashOrder) (stream serviceId topicName : String)
    (key : Option String) (body : String) (now : ℕ) :
    Provider × Except ServiceError (SubscriptionOutput × PublishOutcome) :=
  match validateTopic topicName with
  | .error e => (p, .error e)
  | .ok () =>
    if maxServiceBodySize < body.utf8ByteSize then
      (p, .error (.payloadTooLarge
        ("update body size " ++ toString body.utf8ByteSize ++ " exceeds maximum 65536")))
    else
      match publishMode key with
      | .error e => (p, .error e)
      | .ok mode =>
        let (p₁, ended) := p.createTopic order stream serviceId topicName mode
        match get p₁.topics (serviceId, topicName) with
        | none => (p₁, .error (.invalidArgument ("no topic `" ++ topicName ++ "`")))
        | some topic =>
          if topic.mode = mode then
            match topic.record key body with
            | .error e => (p₁, .error e)
            | .ok topic' =>
              let p₂ := { p₁ with topics := p₁.topics.insert (serviceId, topicName) topic' }
              let (p₃, sent, outcome) := p₂.distribute order
                ⟨serviceId, topicName, mode, topic.stream, topic.nextSeq, key, body⟩ now
              (p₃, .ok (ended ++ sent, outcome))
          else
            (p₁, .error (.invalidArgument (match topic.mode with
              | .latest => "this topic is `latest`: publish with a key"
              | .log => "this topic is `log`: publish without a key")))

def setCheckpoint (stream serviceId topicName body : String) :
    Provider × Except ServiceError SubscriptionOutput :=
  match validateTopic topicName with
  | .error e => (p, .error e)
  | .ok () =>
    if maxServiceBodySize < body.utf8ByteSize then
      (p, .error (.payloadTooLarge
        ("checkpoint size " ++ toString body.utf8ByteSize ++ " exceeds maximum 65536")))
    else
      let (p₁, ended) := p.createTopic order stream serviceId topicName .log
      match get p₁.topics (serviceId, topicName) with
      | none => (p₁, .error (.invalidArgument ("no topic `" ++ topicName ++ "`")))
      | some topic =>
        if topic.mode = .log then
          let topic' := { topic with checkpoint := some (topic.lastSeq, body) }
          ({ p₁ with topics := p₁.topics.insert (serviceId, topicName) topic' }, .ok ended)
        else
          (p₁, .error (.invalidArgument
            "only a `log` topic has a checkpoint; a `latest` topic is its own"))

def clearFor (serviceId topicName stream : String) (subId : String) (sub : ProviderSub) :
    ProviderSub × List SubscriptionFrame :=
  if sub.admitted ∧ sub.serviceId = serviceId ∧
      (sub.topic = topicName ∨ topicName ∈ sub.followed) then
    let leaseMs := asMillis sub.lease
    ({ sub with dirty := sub.dirty.filter fun d => d.1 ≠ topicName },
      [if sub.isPattern then
        -- Not under the reply key: each topic starting over must arrive.
        { recipient := sub.subscriber,
          content := patternReplyContent subId leaseMs [⟨topicName, stream, 0, false⟩]
            sub.patternFull true,
          delivery := .reliable }
      else replyFrame sub.subscriber subId (exactNoticeContent subId leaseMs stream)])
  else (sub, [])

def clearTopic (stream serviceId topicName : String) :
    Provider × Except ServiceError SubscriptionOutput :=
  match get p.topics (serviceId, topicName) with
  | none => (p, .error (.invalidArgument ("no topic `" ++ topicName ++ "`")))
  | some topic =>
    let step := clearFor serviceId topicName stream
    ({ p with
        topics := p.topics.insert (serviceId, topicName) (.new topic.mode stream)
        subs := mapValues p.subs fun id sub => (step id sub).1 },
      .ok ⟨(visit p.subs order.subs).flatMap fun e => (step e.1 e.2).2, []⟩)

def expiry (approvalTimeout now : ℕ) (sub : ProviderSub) : Option String :=
  if sub.admitted = false ∧ approvalTimeout ≤ now - sub.askedAt then some "approval_timeout"
  else if sub.admitted ∧ sub.leaseUntil ≤ now then some "expired"
  else none

def expiredAt : List (String × String) :=
  (visit p.subs order.subs).filterMap fun e => (expiry p.approvalTimeout now e.2).map (e.1, ·)

def expireEach (p : Provider) (order : HashOrder) :
    List (String × String) → Provider × SubscriptionOutput
  | [] => (p, ∅)
  | (id, reason) :: rest =>
    match get p.subs id with
    | none => expireEach p order rest
    | some sub =>
      let ended : SubscriptionOutput := ⟨[], [providerChanged id sub .ended reason]⟩
      if reason = "approval_timeout" then
        let (p', out) := expireEach (p.endSub order id sub) order rest
        (p', ⟨[refuse sub.subscriber id .rejected reason], []⟩ ++ ended ++ out)
      else
        let (p', out) := expireEach { p with subs := p.subs.erase id } order rest
        (p', ended ++ out)

def dirtyFrame (topics : Table (String × String) Topic) (subId : String) (sub : ProviderSub)
    (d : String × String) : List SubscriptionFrame :=
  match get topics (sub.serviceId, d.1) with
  | none => []
  | some topic =>
    match get topic.latest d.2 with
    | none => []
    | some (seq, body) =>
      [updateFrame sub.subscriber subId (sub.label d.1) topic.stream seq (some d.2) body false]

def flushDirty (topics : Table (String × String) Topic) (interval now : ℕ) (subId : String)
    (sub : ProviderSub) : ProviderSub × List SubscriptionFrame :=
  if sub.dirty ≠ [] ∧ due interval now sub then
    ({ sub with dirty := [], lastSent := some now },
      sub.dirty.flatMap (dirtyFrame topics subId sub))
  else (sub, [])

def tick : Provider × SubscriptionOutput :=
  let (p', ended) := p.expireEach order (p.expiredAt order now)
  let step := flushDirty p'.topics p'.minUpdateInterval now
  ({ p' with subs := mapValues p'.subs fun id sub => (step id sub).1 },
    ended ++ ⟨(visit p'.subs order.subs).flatMap fun e => (step e.1 e.2).2, []⟩)

end Provider

end OfflineProtocol
