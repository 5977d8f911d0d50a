import OfflineProtocol.LeafStore

/-! A leaf device: what it does with a frame and what it hands back. A device is its flash, and
every call loads what it needs from there. What the firmware and the MLS library answer is part
of the call. -/
namespace OfflineProtocol
open KeyedTable Interruption

inductive Payload
  | fresh
  | undated
  | neither

/-- The signature metadata of a frame: the address its key derives to and the
payload it signs. -/
inductive Signature
  | absent
  /-- A signature without its key, or a key without its signature. -/
  | half
  | undecodable
  | made (signer : Option String) (covered : Payload)

structure KeyPackagePayload where
  userId : String
  sessionReset : Bool
  wireVersions : List ℕ
  envVersions : List ℕ

structure WelcomeMessage where
  groupId : Option String
  inviterId : String
  welcomeData : Option MlsWelcome

structure EncryptedMessage where
  groupId : Option String
  senderId : String
  decodes : Bool

inductive LeafContent
  | keyPackage (body : Option KeyPackagePayload)
  | welcome (body : Option WelcomeMessage)
  | encrypted (body : Option EncryptedMessage)
  | sessionConfirmProbe
  | sessionConfirmAck
  | unprefixed

structure LeafMessage where
  id : String
  sender : String
  recipient : String
  timestamp : ℤ
  requiresAck : Bool
  signature : Signature
  content : LeafContent

inductive LeafBody
  | keyPackage (reference : String) (sessionReset : Bool)
  | encrypted (compact : Bool) (key : SealKey)
  | sessionConfirmAck
  | acknowledge (id : String)
  deriving DecidableEq

/-- A frame the device built. Its message id is the device's address and the
number the send counter gave it. -/
structure LeafFrame where
  counter : ℕ
  recipient : String
  body : LeafBody
  deriving DecidableEq

inductive LeafEvent
  | peerAdvertised (peer : String)
  | sessionEstablished (peer : String)
  | sessionReset (peer : String)
  | messageReceived (peer text : String)
  | commitApplied (peer : String) (epoch : ℕ)
  | ignored (reason : String)
  deriving DecidableEq

structure Handled where
  outbound : List LeafFrame
  events : List LeafEvent
  deriving DecidableEq

def ignored (reason : String) : Handled := ⟨[], [.ignored reason]⟩

structure LeafIdentity where
  address : String
  namesGroup : String → Bool
  namesUser : String → Bool

def leafCtrlFreshnessPastMs : ℤ := 2 * 24 * 3600 * 1000
def ctrlFreshnessFutureMs : ℤ := 2 * 24 * 3600 * 1000
def i64Max : ℤ := 2 ^ 63 - 1
def u64Max : ℕ := 2 ^ 64 - 1

def saturatingSub (a b : ℤ) : ℤ := max (-2 ^ 63) (min i64Max (a - b))

def millis (nowUnixSecs : ℕ) : ℤ := min (min u64Max (nowUnixSecs * 1000) : ℕ) i64Max

inductive Freshness
  | fresh
  | stale
  | fromTheFuture
  deriving DecidableEq

def controlFrameFreshness (signedMs nowMs : ℤ) : Freshness :=
  let delta := saturatingSub nowMs signedMs
  if 0 ≤ delta then if leafCtrlFreshnessPastMs < delta then .stale else .fresh
  else if ctrlFreshnessFutureMs < -delta then .fromTheFuture else .fresh

inductive ControlPayload
  | fresh
  | undated
  deriving DecidableEq

inductive UndatedPayload
  | admitted
  | refused
  deriving DecidableEq

def verifyControlFrame (message : LeafMessage) (nowUnixSecs : ℕ) (undated : UndatedPayload) :
    Except LeafError ControlPayload :=
  match message.signature with
  | .absent => throw (.controlFrameRefused "control frame carries no signature")
  | .half =>
    throw (.controlFrameRefused
      "control frame carries a signature without its key, or a key without its signature")
  | .undecodable => throw (.controlFrameRefused "signature is not base64")
  | .made signer covered =>
    if signer = some message.sender then
      match covered with
      | .fresh =>
        -- Only now is the stamp proved to be the sender's own.
        if controlFrameFreshness message.timestamp (millis nowUnixSecs) = .fresh then pure .fresh
        else throw .staleControlFrame
      | .undated =>
        if undated = .admitted then pure .undated
        else throw (.controlFrameRefused "signature does not verify")
      | .neither => throw (.controlFrameRefused "signature does not verify")
    else throw .identityBinding

def nextCounter : LeafM ℕ := do
  let current ← read fun f => f.sendCounter.getD 0
  let next := min (current + 1) u64Max
  onFlash (.storeCounter next)
  pure next

def build (me : LeafIdentity) (recipient : String) (body : LeafBody) : LeafM LeafFrame := do
  let counter ← nextCounter
  if me.namesUser recipient then pure ⟨counter, recipient, body⟩
  else raise (.malformedFrame "recipient is not a user id")

def acknowledgeFrame (me : LeafIdentity) (answering : LeafMessage) : LeafM LeafFrame :=
  build me answering.sender (.acknowledge answering.id)

namespace LeafDevice
variable (me : LeafIdentity) (highest : ℕ) (f : Flash) (peer : String) (message : LeafMessage)
  (group : Group) (nowUnixSecs : ℕ) (reference : String) (opened : Opened)

def maxPeers : ℕ := 16
def forgetEpochSlack : ℕ := 16
def leafKeyPackageNotBeforeBackdateSeconds : ℕ := 3600

def groupId : Except LeafError Unit :=
  if me.namesGroup peer then pure () else throw .sealed

def peerRecord : LeafM PeerRecord := read fun f => f.peerRecord peer

def sweepAnchor : ℕ :=
  match f.marker peer with
  | some highest => highest
  | none =>
    match get f.highWater peer with
    | some highest => highest
    | none =>
      match get f.states peer with
      | some entry => entry.group.epoch
      | none => 0

def sweepFloor : ℕ :=
  highest - (GroupStateAdapter.priorEpochRetention + forgetEpochSlack)

def sweepCeiling : ℕ := min (highest + forgetEpochSlack) u64Max

def sweep : List ℕ :=
  List.range' (sweepFloor highest) (sweepCeiling highest + 1 - sweepFloor highest)

def forgetSession : LeafM Unit := do
  lift (groupId me peer)
  let highest ← read fun f => sweepAnchor f peer
  each (sweep highest) fun epoch => onFlash (.deleteEpoch peer epoch)
  onFlash (.deleteState peer)
  onFlash (.deleteHighWater peer)

def forgetPeer : LeafM Unit := do
  let minted ← read fun f => (f.peerRecord peer).keyPackageRef
  forgetSession me peer
  match minted with
  | some reference => do
    KeyPackageAdapter.erase reference
    onFlash (.deletePeer peer)
  | none => onFlash (.deletePeer peer)

def indexPeer : LeafM Unit := do
  let index ← read Flash.peerIndex
  if peer ∈ index then pure () else onFlash (.storePeerIndex (index ++ [peer]))

/-- Whether a session with `peer` is on flash. A pair no group is named for
counts as holding one. -/
def keepsSession : Bool :=
  !me.namesGroup peer || (get f.states peer).isSome

/-- Whom a new peer takes the place of, when the table is full: the first that
holds no session. -/
def victim : Option String :=
  f.peerIndex.find? fun held => !keepsSession me f held

def admitPeer : LeafM Unit := do
  let f ← read id
  if peer ∈ f.peerIndex then pure ()
  else if maxPeers ≤ f.peerIndex.length then
    match victim me f with
    | none => raise .tooManyPeers
    | some v => do
      forgetPeer me v
      onFlash (.storePeerIndex (f.peerIndex.filter (· ≠ v) ++ [peer]))
  else onFlash (.storePeerIndex (f.peerIndex ++ [peer]))

def isStillAPair (roster : List Member) (peer : String) : Bool :=
  roster.length = 2 ∧ ∀ m ∈ roster, (m.address = some me.address ∨ m.address = some peer) ∧ m.derives

def requireStillAPair (peer : String) :
    Except LeafError Unit :=
  if isStillAPair me group.roster peer then pure () else throw .identityBinding

def bindSenderCredential (index : ℕ) (claimed : String) :
    Except LeafError Unit :=
  match group.roster.find? fun m => m.index = index with
  | some m => if m.address = some claimed ∧ m.derives then pure () else throw .identityBinding
  | none => throw .identityBinding

def loadGroup : LeafM Group := do
  lift (groupId me peer)
  let entry ← read fun f => get f.states peer
  match entry with
  | some entry => pure entry.group
  | none => raise (.noSession peer)

def writeToStorage (inserts updates : List ℕ)
    (consumed : Option String) : LeafM Unit := do
  GroupStateAdapter.write peer group inserts updates
  match consumed with
  | some reference => KeyPackageAdapter.erase reference
  | none => pure ()

def mint (nowUnixSecs : ℕ) : LeafM Unit :=
  KeyPackageAdapter.insert reference (nowUnixSecs - leafKeyPackageNotBeforeBackdateSeconds)

def keyPackageFrame :
    LeafM LeafFrame := do
  mint reference nowUnixSecs
  let frame ← build me peer (.keyPackage reference false)
  let record ← peerRecord peer
  onFlash (.storePeer peer { record with keyPackageSent := true, keyPackageRef := some reference })
  indexPeer peer
  pure frame

def sealContent : LeafM LeafFrame := do
  let group ← loadGroup me peer
  lift (requireStillAPair me group peer)
  let key : SealKey := ⟨group.welcome, group.epoch, group.generation⟩
  writeToStorage peer { group with generation := group.generation + 1 } [] [] none
  let record ← peerRecord peer
  build me peer (.encrypted (1 ∈ record.envVersions) key)

def onReset (payload : KeyPackagePayload)
    (signedUnder : ControlPayload) (record : PeerRecord) : LeafM (PeerRecord × List LeafEvent) :=
  if payload.sessionReset ∧ signedUnder ≠ .fresh then
    pure (record, [.ignored ("a session reset arrived on a frame that states no time, " ++
      "so its age cannot be judged and its teardown is refused")])
  else if payload.sessionReset then
    if record.resetIsUnspent message.timestamp then do
      -- Marked before the teardown, never after.
      let marked := { record.rememberReset message.timestamp with keyPackageSent := false }
      onFlash (.markReset message.sender marked)
      forgetSession me message.sender
      pure (marked, [.sessionReset message.sender])
    else pure (record, [.ignored "a session reset arrived that this device has spent"])
  else pure (record, [])

def onKeyPackage (body : Option KeyPackagePayload)
    (nowUnixSecs : ℕ) (reference : String) : LeafM Handled := do
  let signedUnder ← lift (verifyControlFrame message nowUnixSecs .admitted)
  match body with
  | none => raise (.malformedFrame "key package body")
  | some payload =>
    if payload.userId = message.sender then do
      admitPeer me message.sender
      let held ← peerRecord message.sender
      let (record, events) ← onReset me message payload signedUnder held
      let record := { record with envVersions := payload.envVersions,
                                  wireVersions := payload.wireVersions }
      onFlash (.storePeer message.sender record)
      let events := events ++ [.peerAdvertised message.sender]
      if record.keyPackageSent then pure ⟨[], events⟩
      else do
        let frame ← keyPackageFrame me message.sender nowUnixSecs reference
        pure ⟨[frame], events⟩
    else raise .identityBinding

def requireOwnKeyPackage (welcome : MlsWelcome) :
    Except LeafError Unit :=
  match (f.peerRecord peer).keyPackageRef with
  | none => throw .unsolicitedWelcome
  | some minted =>
    if minted ∈ welcome.references then
      if (get f.keyPackages minted).isSome then pure () else throw .staleKeyPackage
    else throw .unsolicitedWelcome

def joinGroup (welcome : MlsWelcome) : Except LeafError (Group × String) :=
  match welcome.references.find? fun r => (get f.keyPackages r).isSome with
  | some reference =>
    if welcome.joinable then pure (⟨welcome, welcome.epoch, 0, welcome.roster⟩, reference)
    else throw (.mls "cannot join from the welcome")
  | none => throw (.mls "cannot join from the welcome")

def onWelcome (body : Option WelcomeMessage)
    (nowUnixSecs : ℕ) : LeafM Handled := do
  let _ ← lift (verifyControlFrame message nowUnixSecs .refused)
  match body with
  | none => raise (.malformedFrame "welcome body")
  | some body =>
    if body.inviterId = message.sender then do
      lift (groupId me message.sender)
      if body.groupId = some message.sender then
        match body.welcomeData with
        | none => raise (.mls "welcome does not decode")
        | some welcome => do
          let f ← read id
          lift (requireOwnKeyPackage f message.sender welcome)
          let (group, consumed) ← lift (joinGroup f welcome)
          if welcome.group = some message.sender then do
            writeToStorage message.sender group [] [] (some consumed)
            indexPeer message.sender
            let confirm ← sealContent me message.sender
            pure ⟨[confirm], [.sessionEstablished message.sender]⟩
          else raise .identityBinding
      else raise .identityBinding
    else raise .identityBinding

inductive Opened
  | refused
  /-- An application message of the current epoch, or of a prior one. -/
  | application (sender : ℕ) (text : String) (prior : Option ℕ)
  | commit (committer : ℕ) (roster : List Member)
  /-- A proposal, by the member that sealed it, or what no member seals: a key
  package, a group info, another Welcome. -/
  | other (sealer : Option ℕ)

def sessionConfirmEncrypted : String := "__MLS_ENC_CONFIRM__"

/-- Whether the library takes an epoch insert: exactly one above the highest
stored. -/
def sequenced (marker : Option ℕ) (epoch : ℕ) : Bool :=
  match marker with
  | some highest => epoch = highest + 1
  | none => true

/-- Opens a sealed frame: the group as it is afterwards, with the epochs inserted
and rewritten. -/
def processIncoming :
    Except LeafError (Group × List ℕ × List ℕ) :=
  match opened with
  | .refused => throw (.mls "cannot open")
  | .application _ _ none => pure (group, [], [])
  | .application _ _ (some prior) =>
    if (get f.epochs (peer, prior)).isSome then pure (group, [], [prior])
    else throw (.mls "cannot open")
  | .commit _ roster =>
    if sequenced (f.marker peer) group.epoch then
      pure ({ group with epoch := group.epoch + 1, generation := 0, roster }, [group.epoch], [])
    else throw (.mls "cannot open")
  | .other _ => pure (group, [], [])

def openedEvents :
    Except LeafError (List LeafEvent) :=
  match opened with
  | .application sender text _ => do
    bindSenderCredential group sender peer
    pure [if text = sessionConfirmEncrypted then .sessionEstablished peer
      else .messageReceived peer text]
  | .commit committer _ => do
    requireStillAPair me group peer
    bindSenderCredential group committer peer
    pure [.commitApplied peer group.epoch]
  | _ => pure [.ignored "sealed frame carried nothing this device acts on"]

def onEncrypted (body : Option EncryptedMessage)
    (opened : Opened) : LeafM Handled :=
  match body with
  | none => raise (.malformedFrame "envelope")
  | some envelope =>
    if envelope.senderId = message.sender then do
      lift (groupId me message.sender)
      if envelope.groupId = some message.sender then do
        let group ← loadGroup me message.sender
        lift (requireStillAPair me group message.sender)
        if envelope.decodes then do
          let f ← read id
          let (group, inserts, updates) ← lift (processIncoming f message.sender group opened)
          writeToStorage message.sender group inserts updates none
          let events ← lift (openedEvents me message.sender group opened)
          pure ⟨[], events⟩
        else raise (.mls "sealed payload does not decode")
      else raise .identityBinding
    else raise .identityBinding

def onProbe : LeafM Handled := do
  let _ ← lift (verifyControlFrame message nowUnixSecs .refused)
  lift (groupId me message.sender)
  let entry ← read fun f => get f.states message.sender
  match entry with
  | none =>
    pure (ignored "a confirmation probe arrived for a peer this device has no session with")
  | some entry => do
    lift (requireStillAPair me entry.group message.sender)
    let ack ← build me message.sender .sessionConfirmAck
    pure ⟨[ack], []⟩

def dispatch : LeafM (Handled × Bool) :=
  match message.content with
  | .keyPackage body => do
    let handled ← onKeyPackage me message body nowUnixSecs reference
    pure (handled, true)
  | .welcome body => do
    let handled ← onWelcome me message body nowUnixSecs
    pure (handled, true)
  | .encrypted body => do
    let handled ← onEncrypted me message body opened
    pure (handled, true)
  | .sessionConfirmProbe => do
    let handled ← onProbe me message nowUnixSecs
    pure (handled, true)
  | .sessionConfirmAck =>
    pure (ignored "an acknowledgement arrived for a probe this device never sends", false)
  | .unprefixed => pure (ignored "frame carries no prefix this device answers", false)

def acknowledge : LeafM (Option LeafFrame) := do
  if message.requiresAck then do
    let known ← read fun f => get f.peers message.sender
    match known with
    | some record => do
      let ack ← acknowledgeFrame me message
      onFlash (.storePeer message.sender (record.rememberAcknowledged message.id))
      pure (some ack)
    | none => pure none
  else pure none

def answered : Bool :=
  message.requiresAck && match get f.peers message.sender with
    | some record => record.wasAcknowledged message.id
    | none => false

def handle : LeafM Handled := do
  let f ← read id
  if message.recipient ≠ me.address then pure (ignored "frame is addressed to another node")
  else if answered f message then do
    let ack ← acknowledgeFrame me message
    pure ⟨[ack], [.ignored "a frame this device already answered arrived again"]⟩
  else do
    let (handled, proven) ← dispatch me message nowUnixSecs reference opened
    if proven then do
      let answer ← attempt (acknowledge me message)
      match answer with
      | .ok (some ack) => pure { handled with outbound := handled.outbound ++ [ack] }
      | .ok none => pure handled
      | .error _ => pure { handled with events := handled.events ++
          [.ignored "the answer this frame is owed could not be stored"] }
    else pure handled

def unpair : LeafM Unit := do
  forgetPeer me peer
  let index ← read Flash.peerIndex
  if peer ∈ index then onFlash (.storePeerIndex (index.filter (· ≠ peer))) else pure ()

end LeafDevice

end OfflineProtocol
