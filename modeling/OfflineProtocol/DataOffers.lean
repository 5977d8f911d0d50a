import OfflineProtocol.DataEngine
import Mathlib.Data.List.Sort

/-! Version offers and pushed changes: how a space is announced to the peer it is
named after. -/
namespace OfflineProtocol
open List

abbrev SpaceName := ℕ

abbrev DocName := ℕ

abbrev DocKey := SpaceName × DocName

abbrev Pattern := ℕ

abbrev VersionToken := Option Version

/-- The body of a sync frame, or a snapshot the media path carries because no frame can.
Attachment frames are not modelled. -/
inductive SyncBody
  | versions (reply : Bool) (isPartial : Bool) (docs gone : List (DocName × VersionToken))
      (want : Option (List Pattern))
  | delta (doc : DocName) (blob : Option Blob)
  | snapshot (doc : DocName) (blob : Option Blob)
  | needSnapshot (doc : DocName)
  | carried (doc : DocName) (blob : Option Blob)

def SyncBody.offered : SyncBody → List DocName
  | .versions _ _ docs _ _ => docs.map Prod.fst
  | _ => []

def maxSyncBlobBytes : ℕ := 32 * 1024
def maxDocsPerVersionFrame : ℕ := 128

structure OfferEntry where
  doc : DocName
  version : Option Version
  floor : Option Version

def OfferEntry.cost (e : OfferEntry) : ℕ := e.version.isSome.toNat + e.floor.isSome.toNat

def offerBatchesFrom : List OfferEntry → List OfferEntry → ℕ → List (List OfferEntry)
  | [], batch, _ => [batch]
  | e :: es, batch, weight =>
    if batch ≠ [] ∧ maxDocsPerVersionFrame < weight + e.cost then
      batch :: offerBatchesFrom es [e] e.cost
    else offerBatchesFrom es (batch ++ [e]) (weight + e.cost)

def offerBatches (entries : List OfferEntry) : List (List OfferEntry) :=
  offerBatchesFrom entries [] 0

lemma flatten_offerBatchesFrom (es batch weight) :
    (offerBatchesFrom es batch weight).flatten = batch ++ es := by
  induction es generalizing batch weight with
  | nil => simp [offerBatchesFrom]
  | cons e es ih =>
    unfold offerBatchesFrom
    split
    · rw [flatten_cons, ih, singleton_append]
    · rw [ih, append_assoc, singleton_append]

/-- Cutting an offer into frames loses none of it. -/
lemma flatten_offerBatches (entries) : (offerBatches entries).flatten = entries := by
  rw [offerBatches, flatten_offerBatchesFrom, nil_append]

structure OfferContents where
  docs : List (DocName × Version)
  gone : List (DocName × Version)
  want : Option (List Pattern)

def OfferContents.entries (offer : OfferContents) : List OfferEntry :=
  let held := offer.docs.map fun d => ⟨d.1, some d.2, offer.gone.lookup d.1⟩
  let removed := (offer.gone.filter fun g => (offer.docs.lookup g.1).isNone).map fun g =>
    ⟨g.1, none, some g.2⟩
  (held ++ removed).insertionSort fun left right => left.doc ≤ right.doc

def batchBody (reply isPartial : Bool) (want : Option (List Pattern)) (batch : List OfferEntry) :
    SyncBody :=
  .versions reply isPartial
    (batch.filterMap fun e => e.version.map fun v => (e.doc, some v))
    (batch.filterMap fun e => e.floor.map fun f => (e.doc, some f)) want

def versionBodies (offer : OfferContents) (reply forcePartial : Bool) : List SyncBody :=
  if offer.docs = [] ∧ offer.gone = [] ∧ reply then []
  else
    let batches := offerBatches offer.entries
    batches.map (batchBody reply (forcePartial || 1 < batches.length) offer.want)

lemma offered_versionBodies (h : (doc, version) ∈ offer.docs) :
    ∃ body ∈ versionBodies offer false forcePartial, doc ∈ body.offered := by
  have hentry : (⟨doc, some version, offer.gone.lookup doc⟩ : OfferEntry) ∈ offer.entries := by
    rw [OfferContents.entries]
    apply (perm_insertionSort _ _).mem_iff.2
    exact mem_append_left _ (mem_map.2 ⟨(doc, version), h, rfl⟩)
  rw [← flatten_offerBatches offer.entries] at hentry
  obtain ⟨batch, hbatch, hin⟩ := mem_flatten.1 hentry
  refine ⟨batchBody false (forcePartial || decide (1 < (offerBatches offer.entries).length))
    offer.want batch, ?_, ?_⟩
  · unfold versionBodies
    rw [if_neg (by simp)]
    exact mem_map.2 ⟨batch, hbatch, rfl⟩
  refine mem_map.2 ⟨(doc, some version), ?_, rfl⟩
  exact mem_filterMap.2 ⟨_, hin, rfl⟩

structure OfferOps (m : Type → Type) where
  dataSyncActive : Bool
  dataSyncVersions : m (Option (List (DocName × Version)))
  tombstonesFor : m (List (DocName × Version))
  interestFor : m (Option (List Pattern))
  docVersion : DocName → m (Option Version)
  blobBytes : Blob → ℕ
  sendSyncFrame : SyncBody → m Unit
  armDataSyncSettle : DocName → m Unit

namespace OfferOps
variable {m : Type → Type} [Monad m] (ops : OfferOps m)

def sendBodies : List SyncBody → m Unit
  | [] => pure ()
  | body :: bodies => do
    ops.sendSyncFrame body
    sendBodies bodies

def sendVersionFrames (offer : OfferContents) (reply forcePartial : Bool) : m Unit :=
  ops.sendBodies (versionBodies offer reply forcePartial)

def offerVersions : m Unit := do
  match ← ops.dataSyncVersions with
  | none => pure ()
  | some docs => do
    let gone ← ops.tombstonesFor
    let want ← ops.interestFor
    ops.sendVersionFrames ⟨docs, gone, want⟩ false false

def spaceChannel (fromPeer : Bool) : Bool := !fromPeer && ops.dataSyncActive

def nudgeDataSync (fromPeer : Bool) : m Unit :=
  if ops.spaceChannel fromPeer then ops.offerVersions else pure ()

def sendDelta (doc : DocName) (blob : Blob) (fromPeer : Bool) : m Unit :=
  if maxSyncBlobBytes < ops.blobBytes blob then ops.nudgeDataSync fromPeer
  else ops.sendSyncFrame (.delta doc (some blob))

def pushDataDelta (doc : DocName) (blob : Blob) (fromPeer : Bool) : m Unit :=
  if ops.spaceChannel fromPeer then
    if fromPeer then ops.sendDelta doc blob fromPeer
    else do
      ops.armDataSyncSettle doc
      ops.sendDelta doc blob fromPeer
  else pure ()

def requestDocCatchUp (doc : DocName) : m Unit := do
  match ← ops.docVersion doc with
  | none => pure ()
  | some version => ops.sendVersionFrames ⟨[(doc, version)], [], none⟩ true true

end OfferOps

end OfflineProtocol
