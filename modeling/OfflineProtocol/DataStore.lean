import OfflineProtocol.DataOffers
import OfflineProtocol.FaultySchedule
import OfflineProtocol.KeyedTable

/-! The document store: what the data layer keeps in memory and in a storage
backend, and how documents are opened, flushed and compacted. Every storage call
may fail or be the last one before a crash. -/
namespace OfflineProtocol
open KeyedTable FaultySchedule

structure DocMeta where
  gone : Version
  alive : Bool
  deriving DecidableEq

structure SyncRecord where
  inFlight : Option (Option Blob)
  quarantined : List (Option Blob)
  deriving DecidableEq

structure DataBackend where
  docs : Table DocKey Blob
  deltaLog : Table (DocKey × ℕ) Blob
  spaces : Table SpaceName (List DocName)
  docMeta : Table DocKey DocMeta
  sync : Table SpaceName SyncRecord

inductive StateCategory
  | docs
  | deltaLog
  | spaces
  | docMeta
  | sync
  deriving DecidableEq

inductive StateKey
  | doc (key : DocKey)
  | delta (key : DocKey) (seq : ℕ)
  | space (space : SpaceName)
  | docMeta (key : DocKey)
  | sync (space : SpaceName)
  deriving DecidableEq

inductive StateRecord
  | doc (key : DocKey) (blob : Blob)
  | delta (key : DocKey) (seq : ℕ) (blob : Blob)
  | space (space : SpaceName) (docs : List DocName)
  | docMeta (key : DocKey) (removal : DocMeta)
  | sync (space : SpaceName) (record : SyncRecord)
  deriving DecidableEq

namespace DataBackend

def empty : DataBackend := ⟨∅, ∅, ∅, ∅, ∅⟩

instance : Inhabited DataBackend := ⟨empty⟩

def put (b : DataBackend) : StateRecord → DataBackend
  | .doc key blob => { b with docs := b.docs.insert key blob }
  | .delta key seq blob => { b with deltaLog := b.deltaLog.insert (key, seq) blob }
  | .space space docs => { b with spaces := b.spaces.insert space docs }
  | .docMeta key removal => { b with docMeta := b.docMeta.insert key removal }
  | .sync space record => { b with sync := b.sync.insert space record }

def remove (b : DataBackend) : StateKey → DataBackend
  | .doc key => { b with docs := b.docs.erase key }
  | .delta key seq => { b with deltaLog := b.deltaLog.erase (key, seq) }
  | .space space => { b with spaces := b.spaces.erase space }
  | .docMeta key => { b with docMeta := b.docMeta.erase key }
  | .sync space => { b with sync := b.sync.erase space }

end DataBackend

structure LoadedDoc where
  doc : DataDoc
  nextSeq : ℕ
  logBytes : ℕ
  compactedBytes : ℕ
  overCap : Bool
  historyComplete : Bool

structure SentFrame where
  space : SpaceName
  body : SyncBody
  held : DataBackend

structure DataLayer where
  disk : ℕ → DataBackend
  backend : ℕ
  docs : Table DocKey LoadedDoc
  spaces : Table SpaceName (List DocName)
  docMeta : Table DocKey DocMeta
  interest : Table SpaceName (List Pattern)
  settle : Table SpaceName (List DocName)
  sent : List SentFrame

/-- What the data layer meets: the engine, what each peer supports, how patterns
match names, and the order a listing comes in. -/
structure DataHost where
  engine : Engine
  replicates : SpaceName → Bool
  tombstones : SpaceName → Bool
  interests : SpaceName → Bool
  media : SpaceName → Bool
  interestMatches : Pattern → DocName → Bool
  listing : List (DocKey × ℕ) → List (DocKey × ℕ)
  listing_perm : ∀ keys, (listing keys).Perm keys

inductive DataError
  | docTooLarge
  | invalidState
  | dataCorrupted
  | other

inductive StorageOp
  | list (backend : ℕ) (category : StateCategory)
  | read (backend : ℕ) (key : StateKey)
  | write (backend : ℕ) (record : StateRecord)
  | delete (backend : ℕ) (key : StateKey)
  deriving DecidableEq

namespace DataLayer
variable (key : DocKey) (s : DataLayer)

def setBackend (backend : ℕ) (contents : DataBackend) : DataLayer :=
  { s with disk := Function.update s.disk backend contents }

def effect : StorageOp → DataLayer → DataLayer
  | .list _ _, s => s
  | .read _ _, s => s
  | .write backend record, s => s.setBackend backend ((s.disk backend).put record)
  | .delete backend key, s => s.setBackend backend ((s.disk backend).remove key)

def stored : DataBackend := s.disk s.backend

def setDoc (entry : LoadedDoc) (s : DataLayer) : DataLayer :=
  { s with docs := s.docs.insert key entry }

def modifyDoc (f : LoadedDoc → LoadedDoc) (s : DataLayer) : DataLayer :=
  { s with docs := modify s.docs key f }

def setSpace (space : SpaceName) (docs : List DocName) (s : DataLayer) : DataLayer :=
  { s with spaces := s.spaces.insert space docs }

def setMeta (removal : DocMeta) (s : DataLayer) : DataLayer :=
  { s with docMeta := s.docMeta.insert key removal }

def names (space : SpaceName) : List DocName := (get s.spaces space).getD []

def docIsRemoved (key : DocKey) : Bool :=
  match get s.docMeta key with
  | some removal => !removal.alive
  | none => false

def docFloor (key : DocKey) : Option Version :=
  (get s.docMeta key).map DocMeta.gone

def restarted : DataLayer :=
  { s with docs := ∅, spaces := ∅, docMeta := ∅, interest := ∅, settle := ∅ }

end DataLayer

abbrev DataM := Task DataLayer StorageOp DataError

def storage (op : StorageOp) : DataM Unit := operate DataLayer.effect .other op

def readRecord {α : Type} (backend : ℕ) (key : StateKey) (f : DataBackend → α) : DataM α := do
  storage (.read backend key)
  read fun s => f (s.disk backend)

def listRecords {α : Type} (backend : ℕ) (category : StateCategory) (f : DataBackend → α) :
    DataM α := do
  storage (.list backend category)
  read fun s => f (s.disk backend)

def addName (docs : List DocName) (doc : DocName) : List DocName :=
  if doc ∈ docs then docs else docs.orderedInsert (· ≤ ·) doc

section
variable (host : DataHost)
variable (eng : Engine) (backend : ℕ) (space : SpaceName) (key : DocKey) (entry : LoadedDoc)
  (fromPeer : Bool) (delta : Blob) (oversized : Bool)

def listDeltaLog : DataM (List (DocKey × ℕ)) :=
  listRecords backend .deltaLog fun b => host.listing b.deltaLog.keys

def deleteDeltas (backend : ℕ) : List (DocKey × ℕ) → DataM Bool
  | [] => pure true
  | k :: keys => do
    let gone ← attempt (storage (.delete backend (.delta k.1 k.2)))
    let rest ← deleteDeltas backend keys
    pure (gone.toBool && rest)

def purgeDocRecords (deltaKeys : Option (List (DocKey × ℕ))) :
    DataM Bool := do
  let gone ← attempt (storage (.delete backend (.doc key)))
  let listed ← match deltaKeys with
    | some keys => pure (.ok keys)
    | none => attempt (listDeltaLog host backend)
  match listed with
  | .ok keys => do
    let rest ← deleteDeltas backend (keys.filter fun k => k.1 = key)
    pure (gone.toBool && rest)
  | .error _ => pure false

def loadMetas (backend : ℕ) (space : SpaceName) :
    List DocKey → List DocName → List DocName → DataM (List DocName × List DocName)
  | [], record, half => pure (record, half)
  | key :: keys, record, half =>
    if key.1 = space then do
      match ← attempt (readRecord backend (.docMeta key) fun b => get b.docMeta key) with
      | .ok (some removal) => do
        update (DataLayer.setMeta key removal)
        if !removal.alive && key.2 ∈ record then
          loadMetas backend space keys (record.filter (· ≠ key.2)) (half ++ [key.2])
        else loadMetas backend space keys record half
      | _ => loadMetas backend space keys record half
    else loadMetas backend space keys record half

def namesIn (keys : List DocKey) : List DocName :=
  (keys.filter fun k => k.1 = space).map Prod.snd

def purgeEach (backend : ℕ) (space : SpaceName) : List DocName → DataM Unit
  | [] => pure ()
  | doc :: docs => do
    let _ ← purgeDocRecords host backend (space, doc) none
    purgeEach backend space docs

def loadSpace : DataM Unit := do
  if ← read fun s => decide (space ∈ s.spaces) then pure ()
  else do
    let backend ← read DataLayer.backend
    let indexed ← attempt (readRecord backend (.space space) fun b => get b.spaces space)
    let compacted ← attempt (listRecords backend .docs fun b => b.docs.keys)
    let logged ← attempt (listDeltaLog host backend)
    let removals ← attempt (listRecords backend .docMeta fun b => b.docMeta.keys)
    let named := (indexed.toOption.join).getD []
    let found := namesIn space (compacted.toOption.getD []) ++
      namesIn space ((logged.toOption.getD []).map Prod.fst)
    let (record, half) ←
      loadMetas backend space (removals.toOption.getD []) (found.foldl addName named) []
    update (DataLayer.setSpace space record)
    purgeEach host backend space half

def persistSpace : DataM Unit := do
  let backend ← read DataLayer.backend
  match ← read fun s => get s.spaces space with
  | none => pure ()
  | some record => storage (.write backend (.space space record))

def setDocMeta (removal : DocMeta) : DataM Unit := do
  let backend ← read DataLayer.backend
  storage (.write backend (.docMeta key removal))
  update (DataLayer.setMeta key removal)

def reviveDoc : DataM Unit := do
  match ← read fun s => get s.docMeta key with
  | none => pure ()
  | some removal => if removal.alive then pure () else setDocMeta key ⟨removal.gone, true⟩

structure Opening where
  doc : DataDoc
  nextSeq : ℕ
  logBytes : ℕ
  replayed : ℕ
  historyComplete : Bool

def Opening.take (o : Opening) (blob : Blob) : Opening :=
  { o with
    doc := o.doc.afterImport eng blob
    historyComplete := o.historyComplete && o.doc.importOutcome eng blob = .applied }

def Opening.start : Option Blob → Opening
  | some blob => (⟨.new, 0, 0, 0, true⟩ : Opening).take eng blob
  | none => ⟨.new, 0, 0, 0, true⟩

def replayDeltas (backend : ℕ) (key : DocKey) : List ℕ → Opening → DataM Opening
  | [], o => pure o
  | seq :: seqs, o => do
    match ← readRecord backend (.delta key seq) fun b => get b.deltaLog (key, seq) with
    | some blob =>
      replayDeltas backend key seqs
        { o.take host.engine blob with
          nextSeq := max o.nextSeq (seq + 1)
          logBytes := o.logBytes + host.engine.bytes blob
          replayed := o.replayed + 1 }
    | none =>
      replayDeltas backend key seqs
        { o with nextSeq := max o.nextSeq (seq + 1), historyComplete := false }

def sequencesOf (keys : List (DocKey × ℕ)) : List ℕ :=
  ((keys.filter fun k => k.1 = key).map Prod.snd).insertionSort (· ≤ ·)

def Opening.loaded (o : Opening) (snapshot : Option Blob) : LoadedDoc :=
  let doc := o.doc.markPersisted
  let compactedBytes :=
    match snapshot with
    | some blob => if eng.bytes blob = 0 then doc.measuredBytes eng else eng.bytes blob
    | none => doc.measuredBytes eng
  ⟨doc.restoreBookkeeping compactedBytes o.logBytes o.replayed, o.nextSeq, o.logBytes,
    compactedBytes, false, o.historyComplete⟩

def DataLayer.enter (s : DataLayer) : DataLayer :=
  { s with
    spaces := modify s.spaces key.1 fun record => addName record key.2
    docs := s.docs.insert key entry }

def openDoc : DataM Unit := do
  if ← read fun s => decide (key ∈ s.docs) then pure ()
  else do
    loadSpace host key.1
    if ← read fun s => s.docIsRemoved key then raise .invalidState
    else do
      let backend ← read DataLayer.backend
      let snapshot ← readRecord backend (.doc key) fun b => get b.docs key
      let listed ← attempt (listDeltaLog host backend)
      let sequences := sequencesOf key (listed.toOption.getD [])
      let o ← replayDeltas host backend key sequences (Opening.start host.engine snapshot)
      update (DataLayer.enter key (o.loaded host.engine snapshot))

def readDoc {α : Type} (key : DocKey) (f : DataDoc → α) : DataM α := do
  openDoc host key
  match ← read fun s => get s.docs key with
  | none => raise .other
  | some entry => pure (f entry.doc)

def dataDocVersion : DataM Version := readDoc host key DataDoc.applied

def withDoc (growth : Bool) (change : Change) : DataM Unit := do
  openDoc host key
  match ← read fun s => get s.docs key with
  | none => raise .other
  | some entry =>
    if growth && entry.overCap then raise .docTooLarge
    else
      match entry.doc.edit host.engine change with
      | none => raise .dataCorrupted
      | some doc => update (DataLayer.setDoc key { entry with doc := doc })

def dataListDocs : DataM (List DocName) := do
  loadSpace host space
  read fun s => s.names space

def versionsOf (space : SpaceName) : List DocName → DataM (List (DocName × Version))
  | [] => pure []
  | doc :: docs => do
    let version ← attempt (dataDocVersion host (space, doc))
    let rest ← versionsOf space docs
    match version with
    | .ok version => pure ((doc, version) :: rest)
    | .error _ => pure rest

def dataSyncVersions : DataM (List (DocName × Version)) := do
  let docs ← dataListDocs host space
  versionsOf host space docs

def DataLayer.removals (s : DataLayer) (space : SpaceName) : List (DocName × Version) :=
  ((s.docMeta.entries.filter fun e => e.1.1 = space).map fun e =>
    (e.1.2, e.2.gone)).insertionSort fun a b => a.1 ≤ b.1

def dataSyncTombstones : DataM (List (DocName × Version)) := do
  loadSpace host space
  read fun s => s.removals space

def offerOps : OfferOps DataM where
  dataSyncActive := host.replicates space
  dataSyncVersions := do
    let versions ← attempt (dataSyncVersions host space)
    pure versions.toOption
  tombstonesFor :=
    if host.tombstones space then do
      let gone ← attempt (dataSyncTombstones host space)
      pure (gone.toOption.getD [])
    else pure []
  interestFor := if host.interests space then read fun s => get s.interest space else pure none
  docVersion doc := do
    let version ← attempt (dataDocVersion host (space, doc))
    pure version.toOption
  blobBytes := host.engine.bytes
  sendSyncFrame body := update fun s => { s with sent := s.sent ++ [⟨space, body, s.stored⟩] }
  armDataSyncSettle doc := update fun s =>
    { s with settle := s.settle.insert space (addName ((get s.settle space).getD []) doc) }

def dropDeltaLog : DataM Unit := do
  match ← attempt (listDeltaLog host backend) with
  | .ok keys => do
    let _ ← deleteDeltas backend (keys.filter fun k => k.1 = key)
    pure ()
  | .error _ => pure ()

def LoadedDoc.compacted : LoadedDoc :=
  { entry with
    logBytes := 0
    compactedBytes := entry.doc.measuredBytes eng
    doc := entry.doc.markCompacted (entry.doc.measuredBytes eng) }

def compactDoc : DataM Unit := do
  match ← read fun s => get s.docs key with
  | none => pure ()
  | some entry =>
    if entry.historyComplete then do
      let backend ← read DataLayer.backend
      storage (.write backend (.doc key entry.doc.exportCompacted))
      dropDeltaLog host backend key
      update (DataLayer.setDoc key (entry.compacted host.engine))
    else pure ()

def DataLayer.rewind : DataLayer → DataLayer :=
  DataLayer.modifyDoc key fun entry => { entry with doc := entry.doc.rewindLastCommit }

def LoadedDoc.written :
    LoadedDoc :=
  let checked := entry.doc.checkSize eng
  { entry with
    doc := checked.2
    nextSeq := if oversized then entry.nextSeq else entry.nextSeq + 1
    logBytes := if oversized then entry.logBytes else entry.logBytes + eng.bytes delta
    compactedBytes := checked.1.2.getD entry.compactedBytes }

def announceCommit :
    DataM Unit :=
  if oversized then (offerOps host key.1).nudgeDataSync fromPeer
  else (offerOps host key.1).pushDataDelta key.2 delta fromPeer

def compactWhen (due : Bool) (key : DocKey) : DataM Unit :=
  if due then compactDoc host key else pure ()

def finishFlush :
    DataM Unit := do
  match ← read fun s => get s.docs key with
  | none => raise .other
  | some entry => do
    let verdict := (entry.doc.checkSize host.engine).1.1
    let after := entry.written host.engine delta oversized
    let due := !oversized && after.historyComplete &&
      shouldCompact after.logBytes after.compactedBytes after.doc.commitsSinceCompaction
    update (DataLayer.setDoc key after)
    announceCommit host key fromPeer delta oversized
    compactWhen host due key
    update (DataLayer.modifyDoc key fun entry => { entry with overCap := verdict = .tooLarge })
    if verdict = .tooLarge then raise .docTooLarge else pure ()

def writeCommit (seq : ℕ) (delta : Blob) (oversized : Bool) : DataM Unit :=
  if oversized then compactDoc host key
  else do
    let backend ← read DataLayer.backend
    storage (.write backend (.delta key seq delta))

def flushDocFrom : DataM Unit := do
  match ← read fun s => get s.docs key with
  | none => pure ()
  | some entry =>
    match entry.doc.pendingDelta with
    | none => pure ()
    | some delta => do
      let oversized : Bool := maxProtocolStateRecordBytes < host.engine.bytes delta
      update (DataLayer.setDoc key { entry with doc := entry.doc.committed host.engine delta })
      if oversized && !entry.historyComplete then do
        update (DataLayer.rewind key)
        raise .other
      else do
        match ← attempt (writeCommit host key entry.nextSeq delta oversized) with
        | .error e => do
          update (DataLayer.rewind key)
          raise e
        | .ok () => finishFlush host key fromPeer delta oversized

def dataFlush : DataM Unit := do
  openDoc host key
  flushDocFrom host key false

def tolerateTooLarge (m : DataM Unit) : DataM Unit := do
  match ← attempt m with
  | .ok () => pure ()
  | .error .docTooLarge => pure ()
  | .error e => raise e

def dataApplyRemote (blob : Option Blob) : DataM RemoteImport := do
  openDoc host key
  match ← read fun s => get s.docs key with
  | none => raise .other
  | some entry =>
    match entry.doc.importRemote host.engine blob with
    | none => raise .dataCorrupted
    | some (outcome, doc) => do
      update (DataLayer.setDoc key
        { entry with
          doc := doc
          historyComplete := entry.historyComplete && outcome ≠ .parked })
      if outcome = .applied then do
        tolerateTooLarge (flushDocFrom host key true)
        persistSpace key.1
        pure outcome
      else pure outcome

def dataCreateDoc : DataM Unit := do
  loadSpace host key.1
  reviveDoc key
  openDoc host key
  persistSpace key.1

end

end OfflineProtocol
