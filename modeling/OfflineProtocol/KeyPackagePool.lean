import OfflineProtocol.FaultySchedule
import OfflineProtocol.KeyedTable
import Mathlib.Data.Finset.Basic

/-! The key packages of an MLS manager. A package is a record in storage and a private
init key that the MLS library holds under the package's reference; a scan of the records
hands packages out and prunes those that are spent. -/
namespace OfflineProtocol
open KeyedTable FaultySchedule

abbrev PackageId := ℕ

abbrev PushPeer := ℕ

def defaultKeyPackageLifetimeMs : ℕ := 30 * 24 * 60 * 60 * 1000
def keyPackagePurgeGraceMs : ℕ := 7 * 24 * 60 * 60 * 1000
def maxPushKeyPackages : ℕ := 64

structure KeyPackageBundle where
  packageId : PackageId
  createdAtMs : ℕ
  expiresAtMs : ℕ
  synced : Bool
  reservedForPublication : Bool
  assignedPeer : Option PushPeer
  deriving DecidableEq

namespace KeyPackageBundle

def withheldFromHandOut (b : KeyPackageBundle) : Bool := b.reservedForPublication || b.synced

def isExpired (b : KeyPackageBundle) (now : ℕ) : Bool := b.expiresAtMs ≤ now

def expiredPastGrace (b : KeyPackageBundle) (now : ℕ) : Bool :=
  b.expiresAtMs + keyPackagePurgeGraceMs ≤ now

def minted (packageId now : ℕ) (reserved : Bool) : KeyPackageBundle :=
  ⟨packageId, now, now + defaultKeyPackageLifetimeMs, false, reserved, none⟩

end KeyPackageBundle

/-- The records, the packages whose init key the library holds, and the next identifier
that was never used. -/
structure KeyPool where
  records : Table PackageId KeyPackageBundle
  initKeys : Finset PackageId
  fresh : ℕ

inductive PoolOp
  | list
  | load (id : PackageId)
  | store (bundle : KeyPackageBundle)
  | delete (id : PackageId)
  | writeKey (id : PackageId)
  | findKey (id : PackageId)
  | deleteKey (id : PackageId)
  deriving DecidableEq

namespace KeyPool

def empty : KeyPool := ⟨∅, ∅, 0⟩

def effect : PoolOp → KeyPool → KeyPool
  | .store bundle, s => { s with records := s.records.insert bundle.packageId bundle }
  | .delete id, s => { s with records := s.records.erase id }
  | .writeKey id, s => { s with initKeys := insert id s.initKeys }
  | .deleteKey id, s => { s with initKeys := s.initKeys.erase id }
  | _, s => s

end KeyPool

inductive MlsError
  | failed

abbrev PoolM := Task KeyPool PoolOp MlsError

def poolCall (op : PoolOp) : PoolM Unit := operate KeyPool.effect .failed op

structure PushKeyPackage where
  bundle : KeyPackageBundle
  poolExhausted : Bool
  deriving DecidableEq

section

structure PoolHost where
  listing : List PackageId → List PackageId
  listing_perm : ∀ ids, (listing ids).Perm ids

def filedHost : PoolHost := ⟨fun ids => ids, fun _ => .refl _⟩

variable (host : PoolHost) (now : ℕ)

def listKeyPackages : PoolM (List PackageId) := do
  poolCall .list
  read fun s => host.listing s.records.keys

def purgeKeyPackageMaterial (id : PackageId) : PoolM Unit := do
  match ← attempt (poolCall (.deleteKey id)) with
  | .error _ => pure ()
  | .ok () => poolCall (.delete id)

def providerHasInitKey (id : PackageId) : PoolM Bool := do
  match ← attempt (poolCall (.findKey id)) with
  | .error _ => pure false
  | .ok () => read fun s => decide (id ∈ s.initKeys)

def loadStoredKeyPackage (id : PackageId) : PoolM (Option KeyPackageBundle) := do
  poolCall (.load id)
  match ← read fun s => get s.records id with
  | none => pure none
  | some bundle =>
    if bundle.isExpired now then do
      if bundle.expiredPastGrace now then purgeKeyPackageMaterial id else pure ()
      pure none
    else do
      if ← providerHasInitKey id then pure (some bundle)
      else do
        poolCall (.delete id)
        pure none

def generateKeyPackage (reserved : Bool) : PoolM KeyPackageBundle := do
  let id ← read KeyPool.fresh
  update fun s => { s with fresh := s.fresh + 1 }
  poolCall (.writeKey id)
  poolCall (.store (.minted id now reserved))
  pure (.minted id now reserved)

def generatePublicationKeyPackage : PoolM KeyPackageBundle := generateKeyPackage now true

def newerThan (candidate : KeyPackageBundle) (current : Option KeyPackageBundle) : Bool :=
  current.all fun existing => existing.createdAtMs < candidate.createdAtMs

structure PoolScan where
  live : ℕ
  assignedHere : Option KeyPackageBundle
  unclaimed : Option KeyPackageBundle
  newest : Option KeyPackageBundle

def PoolScan.start : PoolScan := ⟨0, none, none, none⟩

def PoolScan.note (scan : PoolScan) (peer : PushPeer) (bundle : KeyPackageBundle) : PoolScan where
  live := scan.live + 1
  assignedHere :=
    if bundle.assignedPeer = some peer ∧ newerThan bundle scan.assignedHere then some bundle
    else scan.assignedHere
  unclaimed :=
    if bundle.assignedPeer = none ∧ newerThan bundle scan.unclaimed then some bundle
    else scan.unclaimed
  newest := if newerThan bundle scan.newest then some bundle else scan.newest

def usablePackages : List PackageId → PoolM (List KeyPackageBundle)
  | [] => pure []
  | id :: ids => do
    let bundle ← loadStoredKeyPackage now id
    let rest ← usablePackages ids
    pure ((bundle.filter fun b => !b.withheldFromHandOut).toList ++ rest)

def claimKeyPackage (bundle : KeyPackageBundle) (peer : PushPeer) : PoolM KeyPackageBundle := do
  poolCall (.store { bundle with assignedPeer := some peer })
  pure { bundle with assignedPeer := some peer }

def handOut (peer : PushPeer) (scan : PoolScan) : PoolM PushKeyPackage :=
  match scan.assignedHere, scan.unclaimed, decide (maxPushKeyPackages ≤ scan.live), scan.newest with
  | some bundle, _, _, _ => pure ⟨bundle, false⟩
  | none, some bundle, _, _ => do
    let claimed ← claimKeyPackage bundle peer
    pure ⟨claimed, false⟩
  | none, none, true, some bundle => pure ⟨bundle, true⟩
  | none, none, _, _ => do
    let bundle ← generateKeyPackage now false
    let claimed ← claimKeyPackage bundle peer
    pure ⟨claimed, false⟩

def takePushKeyPackage (peer : PushPeer) : PoolM PushKeyPackage := do
  let ids ← listKeyPackages host
  let usable ← usablePackages now ids
  handOut now peer (usable.foldl (fun scan bundle => scan.note peer bundle) .start)

def generateKeyPackages : ℕ → PoolM Unit
  | 0 => pure ()
  | n + 1 => do
    let _ ← generateKeyPackage now false
    generateKeyPackages n

def ensureMinKeyPackages (min : ℕ) : PoolM ℕ := do
  let ids ← listKeyPackages host
  let usable ← usablePackages now ids
  let missing := Nat.min min maxPushKeyPackages - usable.length
  generateKeyPackages now missing
  pure (usable.length + missing)

def getPendingKeyPackages : PoolM (List KeyPackageBundle) := do
  let ids ← listKeyPackages host
  let usable ← usablePackages now ids
  pure (usable.filter fun b => b.assignedPeer = none)

def markKeyPackageSynced (id : PackageId) : PoolM Unit := do
  match ← loadStoredKeyPackage now id with
  | none => pure ()
  | some bundle =>
    if bundle.synced then pure ()
    else poolCall (.store { bundle with synced := true })

def deleteKeyPackage (id : PackageId) : PoolM Unit := do
  poolCall (.load id)
  match ← read fun s => get s.records id with
  | none => pure ()
  | some _ => purgeKeyPackageMaterial id

def processWelcome (id : PackageId) : PoolM Unit := poolCall (.deleteKey id)

end

/-- The calls for a peer, for publication and for upkeep. `generate_key_package` and
`get_or_create_key_package`, which an application calls for no peer, are not among them. -/
inductive PoolCommand
  | take (peer : PushPeer)
  | ensureMin (min : ℕ)
  | publish
  | pending
  | markSynced (id : PackageId)
  | delete (id : PackageId)
  | welcome (id : PackageId)

namespace PoolCommand

def perform (host : PoolHost) (now : ℕ) : PoolCommand → PoolM Unit
  | take peer => do let _ ← takePushKeyPackage host now peer; pure ()
  | ensureMin min => do let _ ← ensureMinKeyPackages host now min; pure ()
  | publish => do let _ ← generatePublicationKeyPackage now; pure ()
  | pending => do let _ ← getPendingKeyPackages host now; pure ()
  | markSynced id => markKeyPackageSynced now id
  | delete id => deleteKeyPackage id
  | welcome id => processWelcome id

def scans : PoolCommand → Bool
  | take _ => true
  | ensureMin _ => true
  | pending => true
  | _ => false

def spends (id : PackageId) : PoolCommand → Bool
  | delete id' => id' = id
  | welcome id' => id' = id
  | _ => false

lemma spends_iff {id : PackageId} {command : PoolCommand} :
    command.spends id = true ↔ command = .delete id ∨ command = .welcome id := by
  cases command <;> simp [spends]

end PoolCommand

end OfflineProtocol
