import OfflineProtocol.SessionStore

/-! What one device does with its sessions: it pushes key packages, builds groups
from the packages it was pushed, sends each Welcome until the peer proves the
group, compares groups with its peers, and ends a split by giving up its own. -/
namespace OfflineProtocol.SessionSlots
open KeyedTable

namespace SessionDevice
variable (config : SessionConfig) (host : SessionHost) (s : SessionDevice) (peer : PeerId)
  (frame : ControlFrame) (record : WelcomeLifecycleRecord) (sender : PeerId)
  (welcome : WelcomeMessage) (theirs : Option SessionCorroboration) (payload : KeyPackagePayload)
  (timestamp : ℤ) (freshness : Option ℤ)

def controlFrame (host : SessionHost) (peer : PeerId) (body : FrameBody) :
    ControlFrame where
  sender := s.localId
  timestamp := host.now
  version := if peer = s.localId ∨ peer ∈ s.peerCtrlFreshness then .v2 else .v1
  body := body

def emit : SessionDevice :=
  { s with outgoing := s.outgoing ++ [(peer, frame)] }

def sendInternalMessage (host : SessionHost) (peer : PeerId)
    (body : FrameBody) : SessionDevice :=
  s.emit peer (s.controlFrame host peer body)

def noteIn (peers : List PeerId) (peer : PeerId) : List PeerId :=
  if peer ∈ peers then peers
  else if maxKeyPackageSentTo ≤ peers.length then [peer]
  else peer :: peers

def pushKeyPackage (host : SessionHost) (peer : PeerId)
    (sessionReset noSession : Bool) : SessionDevice × Bool :=
  let push := s.slots.takePushKeyPackage host peer
  let s := { s with slots := push.1 }
  if !host.carried then (s, false)
  else
    let payload : KeyPackagePayload :=
      { package := push.2
        sessionReset := sessionReset
        noSession := noSession
        remainingLifetimeMs := push.2.notAfter * 1000 - host.now
        ctrlFreshness := true }
    let s := s.emit peer (s.controlFrame host peer (.keyPackage payload))
    ({ s with keyPackageSentTo := noteIn s.keyPackageSentTo peer }, true)

def sendKeyPackageTo (host : SessionHost) (peer : PeerId)
    (sessionReset : Bool) : SessionDevice × Bool :=
  s.pushKeyPackage host peer sessionReset (!s.slots.hasSession peer)

def sendSessionConfirmEncrypted (host : SessionHost) (peer : PeerId) :
    SessionDevice :=
  match get s.slots.sessions peer with
  | none => s
  | some held =>
    if peer ∉ s.slots.confirmedSessions then s
    else
      let sealed : EncryptedMessage :=
        { group := held.group
          epoch := held.epoch
          senderId := s.localId
          generation := s.slots.sealedCount }
      { s with slots := { s.slots with sealedCount := s.slots.sealedCount + 1 } }.emit peer
        { sender := s.localId
          timestamp := host.now
          version := .v1
          body := .encrypted sealed }

def canTransitionWelcomeState : WelcomeDeliveryState → WelcomeDeliveryState → Bool
  | .created, .sendAttempted => true
  | .created, .expired => true
  | .sendAttempted, .sent => true
  | .sendAttempted, .failed => true
  | .failed, .sendAttempted => true
  | .failed, .sent => true
  | .failed, .expired => true
  | .sent, .failed => true
  | _, _ => false

def transitionWelcomeState (next : WelcomeDeliveryState) :
    Option WelcomeLifecycleRecord :=
  if record.state = next then some record
  else if canTransitionWelcomeState record.state next then some { record with state := next }
  else none

def setWelcome :
    SessionDevice :=
  { s with
    slots := { s.slots with welcomeLifecycles := s.slots.welcomeLifecycles.insert peer record } }

def createdWelcome
    (version : ControlSigVersion) : WelcomeLifecycleRecord where
  state := .created
  attempt := 0
  welcome := welcome
  timestamp := timestamp
  version := version
  expiresAt := host.now + welcomeLifecycleTtlMs

def upsertWelcomeLifecycle (host : SessionHost) (peer : PeerId)
    (welcome : WelcomeMessage) (timestamp : ℤ) (version : ControlSigVersion) :
    SessionDevice × Bool :=
  let created := createdWelcome host welcome timestamp version
  match get s.slots.welcomeLifecycles peer with
  | none => (s.setWelcome peer created, true)
  | some existing =>
    if existing.state = .sent ∨ existing.state = .expired then (s.setWelcome peer created, true)
    else (s, false)

def applyWelcomeSendFailure (noCarrier : Bool)
    (record : WelcomeLifecycleRecord) : WelcomeLifecycleRecord :=
  if record.state = .sent ∨ record.state = .expired then record
  else if !noCarrier ∧ (max config.maxRetries 1 ≤ record.attempt ∨ record.expiresAt ≤ host.now) then
    { record with state := .expired }
  else if noCarrier then
    { record with
      state := .failed
      attempt := record.attempt - 1
      expiresAt := host.now + welcomeLifecycleTtlMs }
  else { record with state := .failed }

def trySendWelcome : SessionDevice :=
  match get s.slots.welcomeLifecycles peer with
  | none => s
  | some record =>
    if record.state = .sent ∨ record.state = .expired then s
    else if host.carrier ∧ record.expiresAt ≤ host.now then
      match transitionWelcomeState record .expired with
      | some settled => s.setWelcome peer settled
      | none => s
    else if !host.carrier then
      -- Parked: a Welcome that never had a carrier does not age.
      s.setWelcome peer { record with expiresAt := host.now + welcomeLifecycleTtlMs }
    else
      let record := { record with attempt := record.attempt + 1 }
      match transitionWelcomeState record .sendAttempted with
      | none => s.setWelcome peer record
      | some attempted =>
        if host.carried then
          (s.setWelcome peer attempted).emit peer
            { sender := s.localId
              timestamp := record.timestamp
              version := record.version
              body := .welcome record.welcome }
        else s.setWelcome peer (applyWelcomeSendFailure config host host.noCarrier attempted)

def sendWelcomeMessage : SessionDevice × Bool :=
  let signed := s.controlFrame host peer (.welcome welcome)
  let put := s.upsertWelcomeLifecycle host peer welcome signed.timestamp signed.version
  if put.2 then (trySendWelcome config host put.1 peer, true) else (put.1, false)

def retryStalledWelcome : SessionDevice :=
  trySendWelcome config host
    (s.setWelcome peer
      { record with attempt := 0, expiresAt := host.now + welcomeLifecycleTtlMs }) peer

def resendWelcome (peerNeverGotIt : Bool) : SessionDevice :=
  match get s.slots.welcomeLifecycles peer with
  | none => s
  | some record =>
    match record.state with
    | .created => retryStalledWelcome config host s peer record
    | .failed => retryStalledWelcome config host s peer record
    | .sendAttempted =>
      -- Settled as lost, the one legal way back to a send.
      if !peerNeverGotIt then s
      else retryStalledWelcome config host s peer { record with state := .failed }
    | .sent =>
      if !peerNeverGotIt then s
      else trySendWelcome config host
        (s.upsertWelcomeLifecycle host peer record.welcome record.timestamp record.version).1 peer
    | .expired =>
      trySendWelcome config host
        (s.upsertWelcomeLifecycle host peer record.welcome record.timestamp record.version).1 peer

def rearmWelcomeForPeer : SessionDevice :=
  if peer ∈ s.slots.confirmedSessions then s else resendWelcome config host s peer false

inductive Established
  | created
  | exists_
  | notReady
deriving DecidableEq

def createGroup
    (received : ReceivedKeyPackage) : SessionDevice × WelcomeMessage :=
  let built := s.slots.createSession config host s.localId peer received
  ({ s with
      slots := built.1
      records := s.records.markEncryptionCapable s.localId peer }, built.2)

def buildFromPending : SessionDevice × Established :=
  match get s.slots.pendingKeyPackages peer with
  | none => (s, .notReady)
  | some received =>
    let forget (t : SlotStore) : SlotStore :=
      { t with pendingKeyPackages := t.pendingKeyPackages.erase peer }
    if received.localExpiresAtMs ≤ host.now then ({ s with slots := forget s.slots }, .notReady)
    else if !received.package.importable config.book peer host.now then (s, .notReady)
    else
      let built := createGroup config host s peer received
      let sent := sendWelcomeMessage config host built.1 peer built.2
      if sent.2 then ({ sent.1 with slots := forget sent.1.slots }, .created)
      else (sent.1, .notReady)

def establishSecureSession : SessionDevice × Established :=
  if peer ∈ s.blocked then (s, .notReady)
  else if s.slots.hasSession peer then (s, .exists_)
  else
    let built := buildFromPending config host s peer
    match built.2 with
    | .created =>
      if config.encryptionEnabled then ((built.1.sendKeyPackageTo host peer false).1, .created)
      else built
    | _ => built

def ensureSessionEstablishment : SessionDevice :=
  if s.slots.hasSession peer then s else (buildFromPending config host s peer).1

def sessionChallengeBody (host : SessionHost) (peer : PeerId) :
    SessionDevice × Option SessionCorroboration :=
  let incarnation := s.slots.sessionIncarnation peer
  let nonce :=
    match get s.checks.corroborationChallenges peer with
    | some (nonce, issuedUnder) => if issuedUnder = incarnation then nonce else host.freshNonce
    | none => host.freshNonce
  match s.slots.corroborationBody peer nonce with
  | none => (s, none)
  | some body =>
    ({ s with
        checks := { s.checks with
          corroborationChallenges :=
            trackIn s.checks.corroborationChallenges peer (nonce, incarnation) } }, some body)

def sendSessionConfirmationProbe (host : SessionHost) (peer : PeerId) :
    SessionDevice :=
  match s.sessionChallengeBody host peer with
  | (s, none) => s
  | (s, some challenge) => s.sendInternalMessage host peer (.confirmProbe (some challenge))

def sessionAnswerBody
    (probe : Option SessionCorroboration) : Option (Option SessionCorroboration) :=
  match probe with
  | none => some none
  | some probe => (s.slots.corroborationBody peer probe.nonce).map some

def answersLiveChallenge (nonce : Nonce) :
    SessionDevice × Bool :=
  match get s.checks.corroborationChallenges peer with
  | none => (s, false)
  | some (issued, issuedUnder) =>
    if issued = nonce then
      ({ s with
          checks := { s.checks with
            corroborationChallenges := s.checks.corroborationChallenges.erase peer } },
        decide (issuedUnder = s.slots.sessionIncarnation peer))
    else (s, false)

def requestSessionCorroboration (host : SessionHost) (peer : PeerId) :
    SessionDevice :=
  if ∃ dueAt ∈ get s.checks.corroborationDueAt peer, host.now < dueAt then s
  else
    match s.sessionChallengeBody host peer with
    | (s, none) => s
    | (s, some challenge) =>
      { s with
        checks := { s.checks with
          corroborationDueAt :=
            trackIn s.checks.corroborationDueAt peer (host.now + rekeyIntervalMs) }
        }.sendInternalMessage host peer (.confirmProbe (some challenge))

def reaskCorroboration (host : SessionHost) (peer : PeerId) :
    SessionDevice :=
  match get s.checks.corroborationReaskAt peer with
  | none => s
  | some due =>
    if host.now < due then s
    else
      { s with
        checks := { s.checks with
          corroborationReaskAt := s.checks.corroborationReaskAt.erase peer
          corroborationDueAt := s.checks.corroborationDueAt.erase peer }
        }.requestSessionCorroboration host peer

def claimRekeySlot (host : SessionHost) (peer : PeerId) :
    SessionDevice × Bool :=
  if ∃ dueAt ∈ get s.checks.rekeyDueAt peer, host.now < dueAt then (s, false)
  else
    ({ s with
        checks := { s.checks with
          rekeyDueAt := trackIn s.checks.rekeyDueAt peer (host.now + rekeyIntervalMs) } }, true)

def releaseRekeySlot : SessionDevice :=
  { s with checks := { s.checks with rekeyDueAt := s.checks.rekeyDueAt.erase peer } }

def discardLocalSession : SessionDevice :=
  if s.slots.hasSession peer then { s with slots := s.slots.manualMlsDeleteSession peer } else s

def driveSessionRekey (host : SessionHost) (peer : PeerId) :
    SessionDevice × Bool :=
  let sent := s.sendKeyPackageTo host peer true
  if sent.2 then (sent.1.discardLocalSession peer, true) else (sent.1, false)

def scheduleSessionRekey (host : SessionHost) (peer : PeerId) :
    SessionDevice :=
  let claimed := s.claimRekeySlot host peer
  if !claimed.2 then claimed.1
  else
    let driven := claimed.1.driveSessionRekey host peer
    if driven.2 then driven.1 else driven.1.discardLocalSession peer

def rekeySession (host : SessionHost) (peer : PeerId) : SessionDevice :=
  if peer ∈ s.blocked ∨ !s.slots.hasSession peer then s
  else
    let claimed := s.claimRekeySlot host peer
    if !claimed.2 then claimed.1
    else
      let driven := claimed.1.driveSessionRekey host peer
      if driven.2 then driven.1 else driven.1.releaseRekeySlot peer

def healSplitSession (answeredOurChallenge : Bool) : SessionDevice :=
  if !config.book.givesWayTo s.localId peer then s
  else if !answeredOurChallenge then s.requestSessionCorroboration host peer
  else
    let claimed := s.claimRekeySlot host peer
    if !claimed.2 then
      let opens := (get s.checks.rekeyDueAt peer).getD (host.now + rekeyIntervalMs)
      { s with
        checks := { s.checks with
          corroborationReaskAt := trackIn s.checks.corroborationReaskAt peer opens } }
    else
      let pushed := claimed.1.pushKeyPackage host peer false true
      if !pushed.2 then pushed.1.releaseRekeySlot peer
      else pushed.1.discardLocalSession peer

def confirmSessionFromSuccessfulDecrypt : SessionDevice :=
  { s with
    checks := { s.checks with
      corroborationChallenges := s.checks.corroborationChallenges.erase sender }
    slots := s.slots.confirmSessionState sender .decryptSuccess }

/-- `handle_encrypted_message` up to the drain that follows a confirmation. -/
def openEncrypted (message : EncryptedMessage) : SessionDevice :=
  match get s.slots.sessions sender with
  -- the frame is queued, and comes back among the host's waiting ones
  | none => s
  | some held =>
    if message.epoch ≠ held.epoch then
      if config.cryptoRecoveryEnabled then s.scheduleSessionRekey host sender
      else s.requestSessionCorroboration host sender
    else if message.group ≠ held.group ∨ message ∈ s.slots.opened then
      s.requestSessionCorroboration host sender
    else if message.senderId ≠ sender then s
    else
      { s with slots := { s.slots with opened := message :: s.slots.opened }
        }.confirmSessionFromSuccessfulDecrypt sender

/-- A frame that confirms the session within the drain finds the queue taken already,
so the drain does not nest. -/
def processPendingDecryption : SessionDevice :=
  if sender ∈ s.blocked then s
  else host.waiting.foldl (fun s message => openEncrypted config host s sender message) s

def challengeAnswered
    (plaintextSource : SlotStore.ConfirmSource) : SessionDevice × Bool :=
  match theirs with
  | some theirs =>
    if plaintextSource = .confirmationAckReceived then s.answersLiveChallenge peer theirs.nonce
    else (s, false)
  | none => (s, false)

def applySessionCorroboration
    (plaintextSource : SlotStore.ConfirmSource) : SessionDevice :=
  let asked := s.challengeAnswered peer theirs plaintextSource
  let confirmFrom source :=
    let confirmed := { asked.1 with slots := asked.1.slots.confirmSessionState peer source }
    if asked.1.slots.canConfirmFromSource peer source then
      processPendingDecryption config host confirmed peer
    else confirmed
  match corroborateSession asked.1.slots peer theirs with
  | .agrees => confirmFrom .sessionCorroborated
  | .absent => confirmFrom plaintextSource
  | .split => healSplitSession config host asked.1 peer asked.2
  | .inconclusive => asked.1

def dropSessionForReset : SessionDevice :=
  { s with
    slots := s.slots.manualMlsDeleteSession peer
    keyPackageSentTo := s.keyPackageSentTo.filter (· ≠ peer) }

def stillJoinable (host : SessionHost) (peer : PeerId) (package : KeyPackage) :
    Option Bool :=
  match get s.slots.welcomeLifecycles peer with
  | none => some false
  | some record =>
    if package.inWindow host.now then some (decide (record.welcome.newMember = package.reference))
    else none

def answerPeerWithoutSession (package : KeyPackage) (freshness : Option ℤ) (unspent : Bool) :
    SessionDevice :=
  if !s.slots.hasSession peer then s
  else
    match s.stillJoinable host peer package with
    | none => s
    | some true => resendWelcome config host s peer true
    | some false =>
      match freshness with
      | none => s
      | some stamp =>
        if !unspent then s
        else if s.records.noSessionPredatesSession host peer stamp then s
        else { s with records := s.records.recordResetSpent peer stamp }.dropSessionForReset peer

def applySessionReset :
    SessionDevice :=
  let s :=
    match freshness with
    | some stamp => { s with records := s.records.recordResetSpent peer stamp }
    | none => s
  if s.slots.hasSession peer then s.dropSessionForReset peer else s

def autoEstablish : SessionDevice :=
  if !config.autoKeyExchange then s
  else
    let established := establishSecureSession config host s peer
    match established.2 with
    | .created =>
      match freshness with
      | some stamp =>
        { established.1 with
          records := established.1.records.noteSessionFrameStamp host peer stamp }
      | none => established.1
    | .exists_ =>
      if host.reachable then established.1 else rearmWelcomeForPeer config host established.1 peer
    | .notReady => established.1

def learnAdvertised :
    SessionDevice :=
  { s with
    peerCtrlFreshness :=
      if payload.ctrlFreshness then noteIn s.peerCtrlFreshness sender
      else s.peerCtrlFreshness.filter (· ≠ sender) }

def directiveUnspent : Bool :=
  match freshness with
  | some stamp => s.records.resetIsUnspent sender stamp
  | none => true

def obeyDirectives : SessionDevice :=
  let resetAdmissible := freshness.isSome || !config.controlFreshnessEnforced ||
    decide (sender ∉ s.records.controlFreshnessPeers)
  let unspent := s.directiveUnspent sender freshness
  let reset := if payload.sessionReset ∧ resetAdmissible ∧ unspent then
    s.applySessionReset sender freshness else s
  if payload.noSession then
    answerPeerWithoutSession config host reset sender payload.package freshness unspent
  else reset

def cacheAndReciprocate : SessionDevice :=
  let s := { s with slots := s.slots.cacheKeyPackage host sender payload timestamp }
  if config.autoKeyExchange ∧ config.encryptionEnabled ∧ sender ∉ s.keyPackageSentTo ∧
      host.reachable then (s.sendKeyPackageTo host sender false).1
  else s

def handleKeyPackageMessage :
    SessionDevice :=
  let s := s.learnAdvertised sender payload
  let s := obeyDirectives config host s sender payload freshness
  let s := cacheAndReciprocate config host s sender payload timestamp
  autoEstablish config host s sender freshness

def handleSessionConfirmProbe : SessionDevice :=
  if !s.slots.hasSession sender then s
  else
    let s := applySessionCorroboration config host s sender theirs .confirmationProbeReceived
    match s.sessionAnswerBody sender theirs with
    | none => s
    | some answer => s.sendInternalMessage host sender (.confirmAck answer)

def handleSessionConfirmAck : SessionDevice :=
  if !s.slots.hasSession sender then s
  else applySessionCorroboration config host s sender theirs .confirmationAckReceived

inductive WelcomeBranch
  | adopted
  | ownerKeep
  | resendConfirm
  | joinFailed
deriving DecidableEq

def adoptWelcome :
    SlotStore × WelcomeBranch × Bool :=
  let joined := s.slots.joinSession config host s.localId welcome timestamp
  if s.slots.hasSession sender then
    if config.book.givesWayTo s.localId sender then
      match joined.2 with
      | none => (joined.1, .adopted, true)
      | some .unprovenLeaf => (joined.1, .joinFailed, false)
      | some _ => (joined.1, .resendConfirm, false)
    else if sender ∈ s.slots.welcomeLifecycles ∧ sender ∉ s.slots.confirmedSessions then
      (s.slots, .ownerKeep, false)
    else (s.slots, .resendConfirm, false)
  else
    match joined.2 with
    | none => (joined.1, .adopted, false)
    | some _ => (joined.1, .joinFailed, false)

def noteAdoption (adoptedOverOurs : Bool) : SessionDevice :=
  { s with
    records :=
      match freshness with
      | some stamp => s.records.noteSessionFrameStamp host sender stamp
      | none => s.records
    slots :=
      if adoptedOverOurs then
        { s.slots with welcomeLifecycles := s.slots.welcomeLifecycles.erase sender }
      else s.slots }

def concludeAdoption : SessionDevice :=
  let s := { s with slots := s.slots.confirmSessionState sender .welcomeReceived }
  let s := processPendingDecryption config host s sender
  if config.encryptionEnabled then
    (s.sendKeyPackageTo host sender false).1.sendSessionConfirmEncrypted host sender
  else s

def handleWelcomeMessage :
    SessionDevice :=
  if welcome.inviterId ≠ sender then s
  else
    let taken := adoptWelcome config host s sender welcome timestamp
    let s := { s with
      slots := taken.1
      records := s.records.markEncryptionCapable s.localId sender }
    match taken.2.1 with
    | .adopted =>
      concludeAdoption config host (noteAdoption host s sender freshness taken.2.2) sender
    | .ownerKeep =>
      let s := { s with slots := s.slots.markBothCreateAwaitingDecrypt sender }
      if config.encryptionEnabled then (s.sendKeyPackageTo host sender false).1 else s
    | .resendConfirm =>
      if config.encryptionEnabled then
        ((s.sendSessionConfirmEncrypted host sender).sendKeyPackageTo host sender false).1
      else s
    | .joinFailed => s

def handleEncryptedMessage (message : EncryptedMessage) : SessionDevice :=
  let opened := openEncrypted config host s sender message
  if sender ∉ s.slots.confirmedSessions ∧ sender ∈ opened.slots.confirmedSessions then
    processPendingDecryption config host opened sender
  else opened

def dispatch : SessionDevice :=
  match frame.body with
  | .keyPackage payload =>
    handleKeyPackageMessage config host s frame.sender payload frame.timestamp freshness
  | .confirmProbe theirs => handleSessionConfirmProbe config host s frame.sender theirs
  | .confirmAck theirs => handleSessionConfirmAck config host s frame.sender theirs
  | .welcome welcome =>
    handleWelcomeMessage config host s frame.sender welcome frame.timestamp freshness
  | .encrypted message => handleEncryptedMessage config host s frame.sender message

def FrameBody.securityGated : FrameBody → Bool
  | .encrypted _ => false
  | _ => true

def noteOlderPayload :
    SessionDevice :=
  if config.controlFreshnessEnforced ∧ frame.version = .v1 ∧
      frame.sender ∈ s.records.controlFreshnessPeers then
    { s with keyPackageSentTo := s.keyPackageSentTo.filter (· ≠ frame.sender) }
  else s

def verified : SessionDevice :=
  { s with records := verifyControlMessage s.records s.localId frame }

def processInternalMessage : SessionDevice :=
  if !FrameBody.securityGated frame.body then dispatch config host s frame none
  else
    match judgeControlFrameFreshness config host.now (s.verified frame).records frame with
    | .refused => s.verified frame
    | .bound => dispatch config host (s.verified frame) frame (some frame.timestamp)
    | .unbound => dispatch config host (noteOlderPayload config (s.verified frame) frame) frame none

inductive SessionOp
  | receive (frame : ControlFrame)
  | establish (peer : PeerId)
  /-- The application sends to the peer. -/
  | ensure (peer : PeerId)
  | probe (peer : PeerId)
  | reask (peer : PeerId)
  | push (peer : PeerId)
  | rekey (peer : PeerId)
  | deleteSession (peer : PeerId)
  | retryWelcome (peer : PeerId)
  | welcomeTimeout (peer : PeerId)
  /-- With the order the store lists its entries in. -/
  | restart (order : List PeerId)
deriving DecidableEq

def retryWelcome : SessionDevice :=
  match get s.slots.welcomeLifecycles peer with
  | none => s
  | some record =>
    if peer ∉ s.slots.confirmedSessions ∧ (record.state = .failed ∨ record.state = .created) then
      trySendWelcome config host s peer
    else s

def welcomeTimeout : SessionDevice :=
  match get s.slots.welcomeLifecycles peer with
  | none => s
  | some record =>
    if peer ∉ s.slots.confirmedSessions ∧ record.state = .sendAttempted then
      s.setWelcome peer (applyWelcomeSendFailure config host false record)
    else s

/-- The store keeps the groups, the packages and the entries; the challenges and
floors are lost. -/
def restart (order : List PeerId) : SessionDevice :=
  { s with
    records := s.records.restoreEncryptionCapablePeers s.localId order
    checks :=
      { corroborationChallenges := ∅
        corroborationDueAt := ∅
        corroborationReaskAt := ∅
        rekeyDueAt := ∅ }
    keyPackageSentTo := [] }

def perform (step : SessionHost × SessionOp) :
    SessionDevice :=
  match step.2 with
  | .receive frame => processInternalMessage config step.1 s frame
  | .establish peer => (establishSecureSession config step.1 s peer).1
  | .ensure peer => ensureSessionEstablishment config step.1 s peer
  | .probe peer => s.sendSessionConfirmationProbe step.1 peer
  | .reask peer => s.reaskCorroboration step.1 peer
  | .push peer => (s.sendKeyPackageTo step.1 peer false).1
  | .rekey peer => s.rekeySession step.1 peer
  | .deleteSession peer => { s with slots := s.slots.manualMlsDeleteSession peer }
  | .retryWelcome peer => retryWelcome config step.1 s peer
  | .welcomeTimeout peer => welcomeTimeout config step.1 s peer
  | .restart order => s.restart order

def step (op : SessionHost × SessionOp) :
    SessionDevice × List (PeerId × ControlFrame) :=
  (perform config s op, (perform config s op).outgoing.drop s.outgoing.length)

end SessionDevice

def freshDevice (localId : PeerId) : SessionDevice where
  localId := localId
  slots :=
    { sessions := ∅
      ownPackages := []
      pendingKeyPackages := ∅
      welcomeLifecycles := ∅
      confirmedSessions := []
      bothCreateAwaitingDecrypt := []
      opened := []
      sealedCount := 0 }
  records :=
    { encryptionCapablePeers := []
      encryptionCapablePersisted := []
      controlFreshnessPeers := []
      controlResetWatermark := ∅
      entries := ∅
      sessionBuildStamps := ∅ }
  checks :=
    { corroborationChallenges := ∅
      corroborationDueAt := ∅
      corroborationReaskAt := ∅
      rekeyDueAt := ∅ }
  keyPackageSentTo := []
  peerCtrlFreshness := []
  blocked := []
  outgoing := []

end OfflineProtocol.SessionSlots
