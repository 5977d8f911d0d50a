import OfflineProtocol.AddressText
import OfflineProtocol.Message

/-! One device's sessions: the group it holds for each peer, what a group is built from, and
the marks that tell an old directive from a new one. A signature is taken as checked, and what
the clock, the random source and the carriers answer is part of each operation. -/
namespace OfflineProtocol.SessionSlots
open KeyedTable

abbrev GroupRef := ℕ

abbrev PackageRef := ℕ

abbrev Nonce := ℕ

def maxEncryptionCapablePeers : ℕ := 8192

def maxRestoreKeysPerCategory : ℕ := 4 * 4096

def maxPendingKeyPackages : ℕ := 1000

def maxKeyPackageSentTo : ℕ := 1000

def maxRekeyTrackedPeers : ℕ := 1000

def maxPushKeyPackages : ℕ := 64

def maxKeyPackageLifetimeMs : ℤ := 30 * 24 * 60 * 60 * 1000

def maxAcceptedKeyPackageLifetime : ℤ := 90 * 24 * 3600

def ctrlFreshnessPastMs : ℤ := 30 * 24 * 3600 * 1000

def ctrlFreshnessFutureMs : ℤ := 2 * 24 * 3600 * 1000

def spentMarkClockToleranceMs : ℤ := 5 * 60 * 1000

def sessionBuildStampWindow : ℕ := 10 * 60 * 1000

def rekeyIntervalMs : ℤ := 30 * 1000

def welcomeLifecycleTtlMs : ℤ := 300 * 1000

/-- Reads an id as an address, by the library it is given. -/
structure AddressBook where
  lib : SignedPayloads.Bech32m

/-- The hash bytes of an address as one number: they are compared in that order. -/
def AddressBook.hashOf (book : AddressBook) (id : PeerId) : Option ℕ :=
  match SignedPayloads.Address.fromStr book.lib id with
  | .ok address => some (ByteFraming.fromBeBytes address.hash.val)
  | .error _ => none

lemma AddressBook.hashOf_some {book : AddressBook} {id} (h : book.hashOf id = some n) :
    ∃ address, SignedPayloads.Address.fromStr book.lib id = .ok address ∧
      ByteFraming.beBytes 20 n = address.hash.val := by
  unfold hashOf at h
  split at h
  · rename_i address hread
    obtain rfl := Option.some.inj h
    have hbytes := (ByteFraming.beBytes_fromBeBytes address.hash.val).1
    rw [address.hash.property] at hbytes
    exact ⟨address, hread, hbytes⟩
  · cases h

/-- One hash, one string: an address is read from its one spelling only. -/
lemma AddressBook.canonical (book : AddressBook) (a b n) (ha : book.hashOf a = some n)
    (hb : book.hashOf b = some n) : a = b := by
  obtain ⟨x, hx, hxn⟩ := hashOf_some ha
  obtain ⟨y, hy, hyn⟩ := hashOf_some hb
  have hxy : x = y := by
    cases x
    cases y
    exact congrArg _ (Subtype.ext (hxn.symm.trans hyn))
  rw [← SignedPayloads.Address.display_of_fromStr book.lib hx, hxy,
    SignedPayloads.Address.display_of_fromStr book.lib hy]

def AddressBook.givesWayTo (book : AddressBook) (localId remote : PeerId) : Bool :=
  match book.hashOf localId, book.hashOf remote with
  | some mine, some theirs => decide (theirs < mine)
  | _, _ => decide (remote < localId)

def AddressBook.forSession (book : AddressBook) (a b : PeerId) : PeerId × PeerId :=
  if book.givesWayTo a b then (b, a) else (a, b)

structure SessionConfig where
  book : AddressBook
  controlFreshnessEnforced : Bool
  autoKeyExchange : Bool
  encryptionEnabled : Bool
  cryptoRecoveryEnabled : Bool
  maxRetries : ℕ

structure KeyPackage where
  reference : PackageRef
  owner : PeerId
  notBefore : ℤ
  notAfter : ℤ
deriving DecidableEq

structure KeyPackagePayload where
  package : KeyPackage
  sessionReset : Bool
  noSession : Bool
  remainingLifetimeMs : ℤ
  ctrlFreshness : Bool
deriving DecidableEq

structure WelcomeMessage where
  inviterId : PeerId
  groupId : PeerId × PeerId
  group : GroupRef
  epoch : ℕ
  newMember : PackageRef
  leavesProven : Bool
deriving DecidableEq

/-- What a member of `group` exports at `epoch` over `nonce`, and nobody else
can. -/
structure Tag where
  group : GroupRef
  epoch : ℕ
  nonce : Nonce
deriving DecidableEq

structure SessionCorroboration where
  epoch : ℕ
  nonce : Nonce
  tag : Tag
deriving DecidableEq

structure EncryptedMessage where
  group : GroupRef
  epoch : ℕ
  senderId : PeerId
  generation : ℕ
deriving DecidableEq

inductive FrameBody
  | keyPackage (payload : KeyPackagePayload)
  | welcome (welcome : WelcomeMessage)
  /-- An older peer's body is empty. -/
  | confirmProbe (theirs : Option SessionCorroboration)
  | confirmAck (theirs : Option SessionCorroboration)
  | encrypted (message : EncryptedMessage)
deriving DecidableEq

inductive ControlSigVersion
  | v1
  | v2
deriving DecidableEq

structure ControlFrame where
  sender : PeerId
  timestamp : ℤ
  version : ControlSigVersion
  body : FrameBody
deriving DecidableEq

structure SessionGroup where
  group : GroupRef
  epoch : ℕ
  establishedAt : ℤ
  /-- The timestamp of the peer's frame it was built from. Nothing reads it. -/
  builtFrom : ℤ
deriving DecidableEq

structure ReceivedKeyPackage where
  package : KeyPackage
  localExpiresAtMs : ℤ
  /-- The timestamp of the frame that brought it. Nothing reads it. -/
  frameStamp : ℤ
deriving DecidableEq

structure OwnPackage where
  package : KeyPackage
  assignedPeer : Option PeerId
  withheld : Bool
deriving DecidableEq

inductive WelcomeDeliveryState
  | created
  | sendAttempted
  | sent
  | failed
  | expired
deriving DecidableEq

structure WelcomeLifecycleRecord where
  state : WelcomeDeliveryState
  attempt : ℕ
  welcome : WelcomeMessage
  timestamp : ℤ
  version : ControlSigVersion
  expiresAt : ℤ
deriving DecidableEq

structure SlotStore where
  sessions : Table PeerId SessionGroup
  ownPackages : List OwnPackage
  pendingKeyPackages : Table PeerId ReceivedKeyPackage
  welcomeLifecycles : Table PeerId WelcomeLifecycleRecord
  confirmedSessions : List PeerId
  bothCreateAwaitingDecrypt : List PeerId
  opened : List EncryptedMessage
  sealedCount : ℕ

structure EncryptionCapableEntry where
  ctrlFreshnessProved : Bool
  lastResetMs : ℤ
deriving DecidableEq

structure PeerRecords where
  encryptionCapablePeers : List PeerId
  encryptionCapablePersisted : List PeerId
  controlFreshnessPeers : List PeerId
  controlResetWatermark : Table PeerId ℤ
  entries : Table PeerId EncryptionCapableEntry
  sessionBuildStamps : Table PeerId (ℤ × ℕ)

structure SplitChecks where
  corroborationChallenges : Table PeerId (Nonce × Option ℤ)
  corroborationDueAt : Table PeerId ℤ
  corroborationReaskAt : Table PeerId ℤ
  rekeyDueAt : Table PeerId ℤ

structure SessionDevice where
  localId : PeerId
  slots : SlotStore
  records : PeerRecords
  checks : SplitChecks
  keyPackageSentTo : List PeerId
  peerCtrlFreshness : List PeerId
  blocked : List PeerId
  outgoing : List (PeerId × ControlFrame)

structure SessionHost where
  now : ℤ
  instant : ℕ
  freshGroup : GroupRef
  freshNonce : Nonce
  minted : KeyPackage
  carrier : Bool
  carried : Bool
  noCarrier : Bool
  reachable : Bool
  /-- The sealed frames that the peer's queue of frames waiting for a session hands back
  when it is drained: some that came while there was none, as its limits left them. -/
  waiting : List EncryptedMessage
deriving DecidableEq

def trackIn {ν : Type} (m : Table PeerId ν) (peer : PeerId) (v : ν) : Table PeerId ν :=
  if peer ∉ m ∧ maxRekeyTrackedPeers ≤ m.keys.length then (∅ : Table PeerId ν).insert peer v
  else m.insert peer v

namespace PeerRecords
variable (r : PeerRecords) (peer : PeerId) (signed : ℤ)

def markEncryptionCapable (localId peer : PeerId) : PeerRecords :=
  if peer = "" ∨ peer = localId then r
  else if peer ∈ r.encryptionCapablePeers then r
  else if maxEncryptionCapablePeers ≤ r.encryptionCapablePeers.length then r
  else { r with encryptionCapablePeers := peer :: r.encryptionCapablePeers }

def currentCapableEntry : EncryptionCapableEntry where
  ctrlFreshnessProved := decide (peer ∈ r.controlFreshnessPeers)
  lastResetMs := (get r.controlResetWatermark peer).getD 0

def persistEntry : PeerRecords :=
  { r with entries := r.entries.insert peer (r.currentCapableEntry peer) }

def recordEncryptionCapable (localId peer : PeerId) : PeerRecords :=
  let r := r.markEncryptionCapable localId peer
  if peer ∉ r.encryptionCapablePeers then r
  else if peer ∈ r.encryptionCapablePersisted then r
  else
    { r.persistEntry peer with
      encryptionCapablePersisted := peer :: r.encryptionCapablePersisted }

def recordControlFreshnessProved : PeerRecords :=
  if peer ∉ r.encryptionCapablePeers then r
  else if peer ∈ r.controlFreshnessPeers then r
  else { r with controlFreshnessPeers := peer :: r.controlFreshnessPeers }.persistEntry peer

def resetIsUnspent : Bool :=
  match get r.controlResetWatermark peer with
  | none => true
  | some seen => decide (seen < signed)

def recordResetSpent : PeerRecords :=
  if peer ∉ r.encryptionCapablePeers then r
  else
    { r with controlResetWatermark := r.controlResetWatermark.insert peer signed }.persistEntry peer

def noteSessionFrameStamp (host : SessionHost) (peer : PeerId) (signed : ℤ) :
    PeerRecords :=
  let r := { r with
    sessionBuildStamps := trackIn r.sessionBuildStamps peer (signed, host.instant) }
  -- The mark is durable, so it never runs far ahead of this device's clock.
  let stamp := if signed ≤ host.now + spentMarkClockToleranceMs then signed
    else host.now + spentMarkClockToleranceMs
  if r.resetIsUnspent peer stamp then r.recordResetSpent peer stamp else r

def noSessionPredatesSession (host : SessionHost) (peer : PeerId) (signed : ℤ) :
    Bool :=
  match get r.sessionBuildStamps peer with
  | none => false
  | some (built, noted) =>
    decide (host.instant - noted < sessionBuildStampWindow) && decide (signed ≤ built)

def restoreEntry (localId : PeerId) (r : PeerRecords) (stored : PeerId × EncryptionCapableEntry) :
    PeerRecords :=
  let r := { r with encryptionCapablePersisted := stored.1 :: r.encryptionCapablePersisted }
  let r := r.markEncryptionCapable localId stored.1
  if stored.1 ∉ r.encryptionCapablePeers then r
  else
    let r := if stored.2.ctrlFreshnessProved then
      { r with controlFreshnessPeers := stored.1 :: r.controlFreshnessPeers } else r
    if stored.2.lastResetMs = 0 then r
    else
      { r with controlResetWatermark :=
          r.controlResetWatermark.insert stored.1 stored.2.lastResetMs }

def restoreEncryptionCapablePeers (localId : PeerId) (order : List PeerId) :
    PeerRecords :=
  ((visit r.entries order).take maxRestoreKeysPerCategory).foldl (restoreEntry localId)
    { r with
      encryptionCapablePeers := []
      encryptionCapablePersisted := []
      controlFreshnessPeers := []
      controlResetWatermark := ∅
      sessionBuildStamps := ∅ }

end PeerRecords

inductive Freshness
  | fresh
  | stale
  | fromTheFuture
deriving DecidableEq

def controlFrameFreshness (signed now : ℤ) : Freshness :=
  if 0 ≤ now - signed then
    if ctrlFreshnessPastMs < now - signed then .stale else .fresh
  else if ctrlFreshnessFutureMs < signed - now then .fromTheFuture else .fresh

inductive FreshnessVerdict
  /-- Signed with its timestamp, inside the window. -/
  | bound
  /-- Authentic, its age not established. -/
  | unbound
  | refused
deriving DecidableEq

def FrameBody.isKeyPackage : FrameBody → Bool
  | .keyPackage _ => true
  | _ => false

def judgeControlFrameFreshness (config : SessionConfig) (now : ℤ) (r : PeerRecords)
    (frame : ControlFrame) : FreshnessVerdict :=
  if !config.controlFreshnessEnforced then .unbound
  else
    match frame.version with
    | .v2 =>
      match controlFrameFreshness frame.timestamp now with
      | .fresh => .bound
      | .stale => .refused
      | .fromTheFuture => .refused
    | .v1 =>
      if frame.sender ∉ r.controlFreshnessPeers then .unbound
      else if frame.body.isKeyPackage then .unbound
      else .refused

def verifyControlMessage (r : PeerRecords) (localId : PeerId) (frame : ControlFrame) :
    PeerRecords :=
  let r := r.recordEncryptionCapable localId frame.sender
  match frame.version with
  | .v1 => r
  | .v2 => r.recordControlFreshnessProved frame.sender

def KeyPackage.inWindow (k : KeyPackage) (now : ℤ) : Bool :=
  decide (k.notBefore < now / 1000) && decide (now / 1000 < k.notAfter)

def KeyPackage.importable (k : KeyPackage) (book : AddressBook) (peer : PeerId) (now : ℤ) : Bool :=
  k.inWindow now && decide (k.owner = peer) && (book.hashOf peer).isSome &&
    decide (k.notAfter - k.notBefore ≤ maxAcceptedKeyPackageLifetime)

inductive JoinError
  | welcomeIdentityMismatch
  | welcomeProcessing
  | unprovenLeaf
deriving DecidableEq

namespace SlotStore
variable (t : SlotStore) (host : SessionHost) (peer : PeerId)

def hasSession : Bool := (get t.sessions peer).isSome

def consume (reference : PackageRef) : SlotStore :=
  { t with ownPackages := t.ownPackages.filter (·.package.reference ≠ reference) }

def install (welcome : WelcomeMessage) (stamp : ℤ) :
    SlotStore :=
  { t.consume welcome.newMember with
    sessions := t.sessions.insert welcome.inviterId
      { group := welcome.group
        epoch := welcome.epoch
        establishedAt := host.now
        builtFrom := stamp } }

def joinSession (config : SessionConfig) (host : SessionHost) (localId : PeerId) (t : SlotStore)
    (welcome : WelcomeMessage) (stamp : ℤ) : SlotStore × Option JoinError :=
  if welcome.groupId ≠ config.book.forSession localId welcome.inviterId then
    (t, some .welcomeIdentityMismatch)
  else if ¬∃ own ∈ t.ownPackages, own.package.reference = welcome.newMember then
    (t, some .welcomeProcessing)
  else if !welcome.leavesProven then (t.consume welcome.newMember, some .unprovenLeaf)
  else (t.install host welcome stamp, none)

def createSession (config : SessionConfig) (host : SessionHost) (localId : PeerId) (t : SlotStore)
    (peer : PeerId) (received : ReceivedKeyPackage) : SlotStore × WelcomeMessage :=
  ({ t with
      sessions := t.sessions.insert peer
        { group := host.freshGroup
          epoch := 1
          establishedAt := host.now
          builtFrom := received.frameStamp } },
    { inviterId := localId
      groupId := config.book.forSession localId peer
      group := host.freshGroup
      epoch := 1
      newMember := received.package.reference
      leavesProven := true })

def manualMlsDeleteSession : SlotStore :=
  { t with
    sessions := t.sessions.erase peer
    confirmedSessions := t.confirmedSessions.filter (· ≠ peer)
    welcomeLifecycles := t.welcomeLifecycles.erase peer
    bothCreateAwaitingDecrypt := t.bothCreateAwaitingDecrypt.filter (· ≠ peer) }

def claimKeyPackage (reference : PackageRef) : SlotStore :=
  { t with
    ownPackages := t.ownPackages.map fun own =>
      if own.package.reference = reference then { own with assignedPeer := some peer } else own }

def mintKeyPackage : SlotStore :=
  { t with
    ownPackages :=
      { package := host.minted, assignedPeer := some peer, withheld := false } :: t.ownPackages }

/-- The peer's own package when one is live, else one nobody claimed, else a new
one; a full pool shares its newest. -/
def takePushKeyPackage :
    SlotStore × KeyPackage :=
  let pool := t.ownPackages.filter (!·.withheld)
  match pool.find? (·.assignedPeer = some peer) with
  | some own => (t, own.package)
  | none =>
    match pool.find? (·.assignedPeer = none) with
    | some own => (t.claimKeyPackage peer own.package.reference, own.package)
    | none =>
      match pool.head? with
      | some own =>
        if maxPushKeyPackages ≤ pool.length then (t, own.package)
        else (t.mintKeyPackage host peer, host.minted)
      | none => (t.mintKeyPackage host peer, host.minted)

def soonestToExpire : Option PeerId :=
  (t.pendingKeyPackages.entries.foldl
    (fun best e =>
      match best with
      | none => some (e.1, e.2.localExpiresAtMs)
      | some (peer, at_) =>
        if e.2.localExpiresAtMs < at_ then some (e.1, e.2.localExpiresAtMs) else some (peer, at_))
    none).map Prod.fst

def cacheKeyPackage
    (payload : KeyPackagePayload) (stamp : ℤ) : SlotStore :=
  let lifetime :=
    if 0 < payload.remainingLifetimeMs then
      if payload.remainingLifetimeMs ≤ maxKeyPackageLifetimeMs then payload.remainingLifetimeMs
      else maxKeyPackageLifetimeMs
    else maxKeyPackageLifetimeMs
  let cached :=
    if peer ∉ t.pendingKeyPackages ∧ maxPendingKeyPackages ≤ t.pendingKeyPackages.keys.length then
      match t.soonestToExpire with
      | some evicted => t.pendingKeyPackages.erase evicted
      | none => t.pendingKeyPackages
    else t.pendingKeyPackages
  { t with
    pendingKeyPackages := cached.insert peer
      { package := payload.package
        localExpiresAtMs := host.now + lifetime
        frameStamp := stamp } }

inductive ConfirmSource
  | decryptSuccess
  | sessionCorroborated
  | welcomeReceived
  | confirmationProbeReceived
  | confirmationAckReceived
  | confirmationRetry
deriving DecidableEq

def ConfirmSource.groupAware : ConfirmSource → Bool
  | .decryptSuccess => true
  | .sessionCorroborated => true
  | _ => false

def ConfirmSource.plaintext : ConfirmSource → Bool
  | .confirmationProbeReceived => true
  | .confirmationAckReceived => true
  | .confirmationRetry => true
  | _ => false

def canConfirmFromSource (source : ConfirmSource) : Bool :=
  if peer ∈ t.bothCreateAwaitingDecrypt ∧ !source.groupAware then false
  else if source.groupAware then true
  else if !source.plaintext then true
  else
    match get t.welcomeLifecycles peer with
    | some record => decide (record.state = .sent) || decide (record.state = .sendAttempted)
    | none => true

def clearBothCreateAwaitingDecrypt : SlotStore :=
  { t with bothCreateAwaitingDecrypt := t.bothCreateAwaitingDecrypt.filter (· ≠ peer) }

def markBothCreateAwaitingDecrypt : SlotStore :=
  { t with
    bothCreateAwaitingDecrypt :=
      if peer ∈ t.bothCreateAwaitingDecrypt then t.bothCreateAwaitingDecrypt
      else peer :: t.bothCreateAwaitingDecrypt }

def markWelcomeConfirmed : SlotStore :=
  match get t.welcomeLifecycles peer with
  | none => t
  | some record =>
    match record.state with
    | .created => { t with welcomeLifecycles := t.welcomeLifecycles.erase peer }
    | .sendAttempted =>
      { t with welcomeLifecycles := t.welcomeLifecycles.insert peer { record with state := .sent } }
    | .failed =>
      { t with welcomeLifecycles := t.welcomeLifecycles.insert peer { record with state := .sent } }
    | .sent => t
    | .expired => t

def confirmSessionState (source : ConfirmSource) : SlotStore :=
  if !t.canConfirmFromSource peer source then t
  else if peer ∈ t.confirmedSessions then t.clearBothCreateAwaitingDecrypt peer
  else
    ({ t with confirmedSessions := peer :: t.confirmedSessions
        }.clearBothCreateAwaitingDecrypt peer).markWelcomeConfirmed peer

def corroborationBody (nonce : Nonce) :
    Option SessionCorroboration :=
  (get t.sessions peer).map fun held =>
    { epoch := held.epoch
      nonce := nonce
      tag := { group := held.group, epoch := held.epoch, nonce := nonce } }

def sessionIncarnation : Option ℤ :=
  (get t.sessions peer).map SessionGroup.establishedAt

end SlotStore

inductive Corroboration
  | absent
  | agrees
  | split
  | inconclusive
deriving DecidableEq

def corroborateSession (t : SlotStore) (peer : PeerId) (theirs : Option SessionCorroboration) :
    Corroboration :=
  match theirs with
  | none => .absent
  | some theirs =>
    match t.corroborationBody peer theirs.nonce with
    | none => .inconclusive
    | some ours =>
      if ours.epoch = theirs.epoch ∧ ours.tag = theirs.tag then .agrees
      else if ours.epoch = theirs.epoch then .split
      else .inconclusive

end OfflineProtocol.SessionSlots
