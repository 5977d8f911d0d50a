import OfflineProtocol.KeyedTable
import OfflineProtocol.Interruption

/-! The flash of a leaf device: one blob store that is atomic per entry, and the
adapters that carry the group state, the prior epochs and the key packages of the
MLS library onto it. -/
namespace OfflineProtocol
open KeyedTable Interruption

structure Member where
  index : ℕ
  address : Option String
  derives : Bool
  deriving DecidableEq

/-- The bytes of a Welcome. Joining from it gives one fixed group, whenever it is
done. -/
structure MlsWelcome where
  bytes : String
  references : List String
  group : Option String
  epoch : ℕ
  roster : List Member
  /-- Whether the library can join from it with the package at hand. -/
  joinable : Bool
  deriving DecidableEq

/-- A pair group as this device holds it. The next frame it seals is sealed under
`generation` of `epoch`. -/
structure Group where
  welcome : MlsWelcome
  epoch : ℕ
  generation : ℕ
  roster : List Member
  deriving DecidableEq

structure SealKey where
  welcome : MlsWelcome
  epoch : ℕ
  generation : ℕ
  deriving DecidableEq

structure StateEntry where
  marker : Option ℕ
  group : Group
  deriving DecidableEq

structure PeerRecord where
  envVersions : List ℕ
  wireVersions : List ℕ
  keyPackageSent : Bool
  keyPackageRef : Option String
  lastResetMs : ℤ
  acknowledged : List String

def rememberedAcks : ℕ := 4

namespace PeerRecord

def new : PeerRecord :=
  { envVersions := [], wireVersions := [], keyPackageSent := false, keyPackageRef := none,
    lastResetMs := 0, acknowledged := [] }

def wasAcknowledged (r : PeerRecord) (id : String) : Bool := id ∈ r.acknowledged

def rememberAcknowledged (r : PeerRecord) (id : String) : PeerRecord :=
  if r.wasAcknowledged id then r
  else
    let kept := if rememberedAcks ≤ r.acknowledged.length then r.acknowledged.tail
      else r.acknowledged
    { r with acknowledged := kept ++ [id] }

def rememberReset (r : PeerRecord) (signedMs : ℤ) : PeerRecord := { r with lastResetMs := signedMs }

def resetIsUnspent (r : PeerRecord) (signedMs : ℤ) : Bool := r.lastResetMs < signedMs

end PeerRecord

/-- Every entry on flash. A group's entries are filed under the peer this device
forms the pair with: the group's name is determined by the two addresses. -/
structure Flash where
  sendCounter : Option ℕ
  states : Table String StateEntry
  epochs : Table (String × ℕ) MlsWelcome
  highWater : Table String ℕ
  keyPackages : Table String ℕ
  keyPackageIndex : List String
  peers : Table String PeerRecord
  peerIndex : List String

namespace Flash

def empty : Flash :=
  { sendCounter := none, states := ∅, epochs := ∅, highWater := ∅, keyPackages := ∅,
    keyPackageIndex := [], peers := ∅, peerIndex := [] }

def marker (f : Flash) (peer : String) : Option ℕ :=
  match get f.states peer with
  | some entry => entry.marker
  | none => none

def peerRecord (f : Flash) (peer : String) : PeerRecord := (get f.peers peer).getD .new

end Flash

inductive FlashOp
  | storeCounter (counter : ℕ)
  | storeEpoch (peer : String) (epoch : ℕ) (welcome : MlsWelcome)
  | storeState (peer : String) (entry : StateEntry)
  | storeHighWater (peer : String) (epoch : ℕ)
  /-- The delete of a record that left the window of prior epochs. -/
  | trimEpoch (peer : String) (epoch : ℕ)
  | deleteEpoch (peer : String) (epoch : ℕ)
  | deleteState (peer : String)
  | deleteHighWater (peer : String)
  | storeKeyPackage (reference : String) (notBefore : ℕ)
  | deleteKeyPackage (reference : String)
  | storeKeyPackageIndex (index : List String)
  | storePeer (peer : String) (record : PeerRecord)
  /-- The peer record written with the mark of a reset, before its teardown. -/
  | markReset (peer : String) (record : PeerRecord)
  | deletePeer (peer : String)
  | storePeerIndex (index : List String)

def FlashOp.effect : FlashOp → Flash → Flash
  | .storeCounter counter, f => { f with sendCounter := some counter }
  | .storeEpoch peer epoch welcome, f =>
    { f with epochs := f.epochs.insert (peer, epoch) welcome }
  | .storeState peer entry, f => { f with states := f.states.insert peer entry }
  | .storeHighWater peer epoch, f => { f with highWater := f.highWater.insert peer epoch }
  | .trimEpoch peer epoch, f => { f with epochs := f.epochs.erase (peer, epoch) }
  | .deleteEpoch peer epoch, f => { f with epochs := f.epochs.erase (peer, epoch) }
  | .deleteState peer, f => { f with states := f.states.erase peer }
  | .deleteHighWater peer, f => { f with highWater := f.highWater.erase peer }
  | .storeKeyPackage reference notBefore, f =>
    { f with keyPackages := f.keyPackages.insert reference notBefore }
  | .deleteKeyPackage reference, f => { f with keyPackages := f.keyPackages.erase reference }
  | .storeKeyPackageIndex index, f => { f with keyPackageIndex := index }
  | .storePeer peer record, f => { f with peers := f.peers.insert peer record }
  | .markReset peer record, f => { f with peers := f.peers.insert peer record }
  | .deletePeer peer, f => { f with peers := f.peers.erase peer }
  | .storePeerIndex index, f => { f with peerIndex := index }

inductive LeafError
  | storage
  | mls (reason : String)
  | malformedFrame (reason : String)
  | controlFrameRefused (reason : String)
  | staleControlFrame
  | identityBinding
  | noSession (peer : String)
  | unsolicitedWelcome
  | staleKeyPackage
  | tooManyPeers
  | sealed
  deriving DecidableEq

abbrev LeafM (α : Type) := Prog Flash FlashOp LeafError α

def onFlash (op : FlashOp) : LeafM Unit := operate FlashOp.effect .storage op

namespace GroupStateAdapter

def priorEpochRetention : ℕ := 3

def trim (peer : String) (inserted : ℕ) : LeafM Unit :=
  if priorEpochRetention ≤ inserted then do
    let _ ← attempt (onFlash (.trimEpoch peer (inserted - priorEpochRetention)))
    pure ()
  else pure ()

def advance (marker : Option ℕ) (epochs : List ℕ) : Option ℕ :=
  epochs.foldl (fun held epoch => some (match held with
    | some h => max h epoch
    | none => epoch)) marker

def write (peer : String) (group : Group) (inserts updates : List ℕ) : LeafM Unit := do
  let previous ← read fun f => f.marker peer
  let marker := advance previous (inserts ++ updates)
  each (inserts ++ updates) fun epoch => onFlash (.storeEpoch peer epoch group.welcome)
  onFlash (.storeState peer { marker, group })
  match (if marker = previous then none else marker) with
  | some high => do
    let _ ← attempt (onFlash (.storeHighWater peer high))
    each inserts (trim peer)
  | none => each inserts (trim peer)

end GroupStateAdapter

namespace KeyPackageAdapter

def maxUnspentKeyPackages : ℕ := 4

def erase (reference : String) : LeafM Unit := do
  onFlash (.deleteKeyPackage reference)
  let index ← read Flash.keyPackageIndex
  if reference ∈ index then do
    let _ ← attempt (onFlash (.storeKeyPackageIndex (index.erase reference)))
    pure ()
  else pure ()

def admitted (index : List String) (reference : String) : List String × List String :=
  let index := if reference ∈ index then index else index ++ [reference]
  let excess := index.length - maxUnspentKeyPackages
  (index.drop excess, index.take excess)

def insert (reference : String) (notBefore : ℕ) : LeafM Unit := do
  let held ← read Flash.keyPackageIndex
  let (index, evicted) := admitted held reference
  each evicted fun stale => onFlash (.deleteKeyPackage stale)
  onFlash (.storeKeyPackageIndex index)
  onFlash (.storeKeyPackage reference notBefore)

end KeyPackageAdapter

end OfflineProtocol
