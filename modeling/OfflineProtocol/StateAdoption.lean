import OfflineProtocol.DataEngine
import OfflineProtocol.FaultySchedule
import OfflineProtocol.EventTrace
import OfflineProtocol.KeyedTable

/-! Moving the protocol state of an old install out of secure storage. -/
namespace OfflineProtocol
open KeyedTable FaultySchedule EventTrace
open Interruption (Fault Part Outcome)

inductive LegacyCategory
  | blockedUsers
  | outbox
  | pendingMessages
  | sessionStates
  | welcomeLifecycles
  | peerKeyPackages
  | peerCapabilities
  | mediaDescriptors
  | bothCreateAwaitingDecrypt
  | lamportClock
  | stateAdoption
  deriving DecidableEq

namespace LegacyCategory

def requiresSealing : LegacyCategory → Bool
  | outbox => true
  | pendingMessages => true
  | peerKeyPackages => true
  | mediaDescriptors => true
  | _ => false

def adoptable : List LegacyCategory :=
  [blockedUsers, outbox, pendingMessages, sessionStates, welcomeLifecycles, peerKeyPackages,
    peerCapabilities, mediaDescriptors, bothCreateAwaitingDecrypt, lamportClock]

end LegacyCategory

structure LegacyKey where
  category : LegacyCategory
  id : String
  deriving DecidableEq

def LegacyKey.marker : LegacyKey := ⟨.stateAdoption, "complete"⟩

structure StateValue where
  content : ℕ
  length : ℕ
  deriving DecidableEq

def maxRestoreKeysPerCategory : ℕ := 4 * 4096

def StateValue.Fits (v : StateValue) : Prop := v.length ≤ maxProtocolStateRecordBytes

instance (v : StateValue) : Decidable v.Fits := inferInstanceAs (Decidable (_ ≤ _))

inductive SettlementEvent
  | messageFailed (id : String) (reason : String) (attempts : ℕ)
  | convergenceDiag (code subject detail : String)

structure AdoptStores where
  secure : Table LegacyKey StateValue
  state : Table LegacyKey StateValue
  reported : List SettlementEvent

inductive AdoptOp
  | listSecure (category : LegacyCategory)
  | loadSecure (key : LegacyKey)
  | deleteSecure (key : LegacyKey)
  | loadState (key : LegacyKey)
  | storeState (key : LegacyKey) (value : StateValue)
  | deleteState (key : LegacyKey)
  deriving DecidableEq

def AdoptStores.effect : AdoptOp → AdoptStores → AdoptStores
  | .deleteSecure key, s => { s with secure := s.secure.erase key }
  | .storeState key value, s => { s with state := s.state.insert key value }
  | .deleteState key, s => { s with state := s.state.erase key }
  | _, s => s

abbrev AdoptM := Task AdoptStores AdoptOp Unit

def storeCall (op : AdoptOp) : AdoptM Unit := operate AdoptStores.effect () op

structure AdoptHost where
  listing : List LegacyKey → List LegacyKey
  listing_perm : ∀ keys, (listing keys).Perm keys
  isMessageId : String → Bool

inductive StateReading
  | present (value : StateValue)
  | missing
  | unreadable
  | unavailable

section
variable (host : AdoptHost) (cipher : Bool)

def readStateRecordDetailed (key : LegacyKey) : AdoptM StateReading := do
  storeCall (.loadState key)
  match ← read fun s => get s.state key with
  | none => pure .missing
  | some value =>
    if value.Fits then
      if key.category.requiresSealing && !cipher then pure .unavailable
      else pure (.present value)
    else do
      let _ ← attempt (storeCall (.deleteState key))
      pure .unreadable

def writeStateRecord (key : LegacyKey) (value : StateValue) : AdoptM Unit :=
  if value.Fits then
    if key.category.requiresSealing && !cipher then raise () else storeCall (.storeState key value)
  else raise ()

def unrecoverableMessageSettlement (id reason : String) (attempts : ℕ) : SettlementEvent :=
  if host.isMessageId id then .messageFailed id reason attempts
  else .convergenceDiag "pending_state_lost" id
    (reason ++ ", and its message id could not be recovered from the record key")

def unadoptableRecordSettlement (key : LegacyKey) : Option SettlementEvent :=
  match key.category with
  | .outbox => some (unrecoverableMessageSettlement host key.id
      "Outbox entry from a previous version was too large to migrate" 0)
  | .pendingMessages => some (.convergenceDiag "pending_state_lost" key.id
      ("Messages queued before the storage split exceeded the protocol-state record limit and " ++
        "could not be migrated"))
  | _ => none

def inheritLegacyRecord (key : LegacyKey) (destinationDestroyed : Bool) :
    AdoptM (Bool × List SettlementEvent) := do
  storeCall (.loadSecure key)
  match ← read fun s => get s.secure key with
  | none =>
    pure (false, if destinationDestroyed then (unadoptableRecordSettlement host key).toList else [])
  | some value =>
    if value.Fits then do
      writeStateRecord cipher key value
      let _ ← attempt (storeCall (.deleteSecure key))
      pure (true, [])
    else do
      let _ ← attempt (storeCall (.deleteSecure key))
      pure (false, (unadoptableRecordSettlement host key).toList)

def adoptOneLegacyRecord (key : LegacyKey) : AdoptM (Bool × List SettlementEvent) := do
  match ← readStateRecordDetailed cipher key with
  | .present _ => pure (false, [])
  | .missing => inheritLegacyRecord host cipher key false
  | .unreadable => inheritLegacyRecord host cipher key true
  | .unavailable => raise ()

def adoptEach : List LegacyKey → AdoptM (Bool × List SettlementEvent)
  | [] => pure (false, [])
  | key :: keys => do
    let outcome ← attempt (adoptOneLegacyRecord host cipher key)
    let rest ← adoptEach keys
    match outcome with
    | .error _ => pure (true, rest.2)
    | .ok own => pure (rest.1, own.2 ++ rest.2)

def legacyKeys (category : LegacyCategory) (s : AdoptStores) : List LegacyKey :=
  host.listing (s.secure.keys.filter fun key => key.category = category)

def sweepCategories : List LegacyCategory → AdoptM (Bool × List SettlementEvent)
  | [] => pure (false, [])
  | category :: categories => do
    let listed ← attempt (storeCall (.listSecure category))
    let keys ← read (legacyKeys host category)
    match listed with
    | .error _ => do
      let rest ← sweepCategories categories
      pure (true, rest.2)
    | .ok _ => do
      let own ← adoptEach host cipher (keys.take maxRestoreKeysPerCategory)
      let rest ← sweepCategories categories
      pure (decide (maxRestoreKeysPerCategory < keys.length) || own.1 || rest.1, own.2 ++ rest.2)

def adoptLegacyProtocolState : AdoptM Unit := do
  match ← attempt (storeCall (.loadState .marker)) with
  | .error _ => pure ()
  | .ok _ =>
    match ← read fun s => get s.state .marker with
    | some _ => pure ()
    | none => do
      let swept ← sweepCategories host cipher LegacyCategory.adoptable
      update fun s => { s with reported := s.reported ++ swept.2 }
      if swept.1 then pure ()
      else do
        let _ ← attempt (writeStateRecord cipher .marker ⟨0, 0⟩)
        pure ()

end

inductive AdoptStep
  | launch (cipher : Bool) (schedule : Schedule AdoptOp)
  /-- The running engine writes a record, or deletes one that it used up. -/
  | write (key : LegacyKey) (value : StateValue)
  | delete (key : LegacyKey)

structure AdoptRun where
  stores : AdoptStores
  adopted : List LegacyKey

namespace AdoptRun
variable {host : AdoptHost}

def start (stores : AdoptStores) : AdoptRun := ⟨stores, []⟩

def swept (host : AdoptHost) (cipher : Bool) (schedule : Schedule AdoptOp) (s : AdoptStores) :
    AdoptStores :=
  (adoptLegacyProtocolState host cipher schedule ⟨s, []⟩).2.durable

def apply (host : AdoptHost) (r : AdoptRun) : AdoptStep → AdoptRun
  | .launch cipher schedule =>
    let s := swept host cipher schedule r.stores
    ⟨s, r.adopted ++ s.state.keys.filter fun key =>
      decide (key ∉ r.stores.state) && decide (key ≠ .marker)⟩
  | .write key value =>
    { r with stores := { r.stores with state := r.stores.state.insert key value } }
  | .delete key => { r with stores := { r.stores with state := r.stores.state.erase key } }

/-- Failed calls have no effect, the engine keeps the limit, and the marker is not its. -/
def enabled (_ : AdoptRun) : AdoptStep → Prop
  | .launch _ schedule => schedule.Within fun _ fault => fault ≠ .failed true
  | .write key value => key ≠ .marker ∧ value.Fits
  | .delete key => key ≠ .marker

def machine (host : AdoptHost) : Machine AdoptRun AdoptStep := ⟨apply host, enabled⟩

end AdoptRun

def AdoptStores.Risky (s : AdoptStores) : Prop :=
  ∃ key value, get s.secure key = some value ∧ ¬value.Fits ∧
    (key.category = .outbox ∨ key.category = .pendingMessages)

/-- No crash and no failure comes between a record's copy and the deletion of its original,
no such deletion fails, and a launch that has to destroy a record of the outbox or the
pending queue is not cut off. -/
def adoptsWhole (risky : Prop) (op : AdoptOp) (fault : Fault) : Prop :=
  (risky → ∀ applied, fault ≠ .cut applied) ∧
    match op, fault with
    | .deleteSecure _, .failed _ => False
    | .deleteSecure _, .cut false => False
    | .storeState key _, .cut true => key = .marker
    | _, _ => True

def AdoptStep.Whole (r : AdoptRun) : AdoptStep → Prop
  | .launch _ schedule => schedule.Within (adoptsWhole r.stores.Risky)
  | _ => True

end OfflineProtocol
