import OfflineProtocol.DataStore

/-! Applying what a peer sends. -/
namespace OfflineProtocol
open KeyedTable FaultySchedule DataLayer

def maxDocsPerSpace : ℕ := 1024
def maxQuarantinedBlobs : ℕ := 32

inductive BlobKind
  | delta
  | snapshot

def endVersion (eng : Engine) (changes : Finset Change) : Version :=
  changes ∪ changes.biUnion eng.earlier

section
variable (host : DataHost)
variable (moved : Moved) (s : DataLayer) (key : DocKey) (record : SyncRecord) (blob : Option Blob)
  (kind : BlobKind)

def persistSyncRecord (space : SpaceName) (record : SyncRecord) : DataM Unit := do
  let backend ← read backend
  let _ ← attempt (storage (.write backend (.sync space record)))
  pure ()

def SyncRecord.quarantine (digest : Option Blob) : SyncRecord :=
  if digest ∈ record.quarantined then ⟨none, record.quarantined⟩
  else
    let quarantined := record.quarantined ++ [digest]
    ⟨none, quarantined.drop (quarantined.length - maxQuarantinedBlobs)⟩

def loadSyncRecord (space : SpaceName) : DataM SyncRecord := do
  let backend ← read backend
  let found ← attempt (readRecord backend (.sync space) fun b => get b.sync space)
  let record := (found.toOption.join).getD ⟨none, []⟩
  match record.inFlight with
  | none => pure record
  | some digest => do
    persistSyncRecord space (record.quarantine digest)
    pure (record.quarantine digest)

def DataLayer.dataWants : Bool :=
  match get s.interest key.1 with
  | none => true
  | some patterns => patterns.any fun pattern => host.interestMatches pattern key.2

def DataLayer.admitsDoc : Bool :=
  match get s.spaces key.1 with
  | none => true
  | some docs =>
    let removed := s.docMeta.keys.filter fun k => k.1 = key.1 ∧ k.2 ∉ docs
    key.2 ∈ docs || key ∈ s.docMeta || docs.length + removed.length < maxDocsPerSpace

def dataSpaceAdmitsDoc : DataM Bool := do
  match ← attempt (loadSpace host key.1) with
  | .error _ => pure true
  | .ok () => read fun s => s.admitsDoc key

def loadedDocFloor : DataM (Option Version) := do
  match ← attempt (loadSpace host key.1) with
  | .error _ => pure none
  | .ok () => read fun s => s.docFloor key

def dataBlobBelowFloor : DataM Bool := do
  match ← loadedDocFloor host key with
  | none => pure false
  | some floor =>
    match blob with
    | none => pure false
    | some blob => pure (endVersion host.engine blob.changes ⊆ floor)

def judgedBelowFloor : DataM Bool := do
  match ← loadedDocFloor host key with
  | none => pure false
  | some _ => do
    persistSyncRecord key.1 { record with inFlight := some blob }
    let below ← dataBlobBelowFloor host key blob
    persistSyncRecord key.1 { record with inFlight := none }
    pure below

def dataReviveRemovedDoc : DataM Unit := do
  loadSpace host key.1
  reviveDoc key

def preFlush : DataM Bool := do
  match ← attempt (dataFlush host key) with
  | .ok () => pure false
  | .error .docTooLarge => pure false
  | .error _ => pure true

def answerImport : Except DataError RemoteImport → DataM Unit
  | .ok .parked =>
    match kind with
    | .delta => (offerOps host key.1).requestDocCatchUp key.2
    | .snapshot => pure ()
  | .ok .refusedTrimmedHistory =>
    match kind with
    | .delta => (offerOps host key.1).sendSyncFrame (.needSnapshot key.2)
    | .snapshot => pure ()
  | _ => pure ()

def nudgeStranded (leftPending : Bool) (outcome : Except DataError RemoteImport) :
    DataM Unit :=
  if leftPending && outcome.toOption = some .applied then (offerOps host key.1).nudgeDataSync false
  else pure ()

def importContained :
    DataM Unit := do
  let leftPending ← preFlush host key
  persistSyncRecord key.1 { record with inFlight := some blob }
  let outcome ← attempt (dataApplyRemote host key blob)
  persistSyncRecord key.1 { record with inFlight := none }
  answerImport host key kind outcome
  nudgeStranded host key leftPending outcome

def reviveAndImport :
    DataM Unit := do
  match ← attempt (dataReviveRemovedDoc host key) with
  | .error _ => pure ()
  | .ok () => importContained host key record blob kind

def judgeBlob : DataM Unit := do
  let record ← loadSyncRecord key.1
  if blob ∈ record.quarantined then pure ()
  else
    if ← judgedBelowFloor host key record blob then pure ()
    else reviveAndImport host key record blob kind

def applyContainedBlob : DataM Unit := do
  if ← read fun s => s.dataWants host key then
    if ← dataSpaceAdmitsDoc host key then judgeBlob host key blob kind
    else pure ()
  else pure ()

/-- The documents whose export marker a move advanced, and those it wrote with their
sizes. -/
structure Moved where
  committed : List DocKey
  migrated : List (DocKey × ℕ)

def LoadedDoc.folded (eng : Engine) (entry : LoadedDoc) : LoadedDoc :=
  match entry.doc.pendingDelta with
  | none => entry
  | some delta => { entry with doc := entry.doc.committed eng delta }

def Moved.commit (entry : LoadedDoc) : Moved :=
  if entry.doc.pendingDelta.isSome then { moved with committed := moved.committed ++ [key] } else moved

def writeOpenDocs : List DocKey → Moved → DataM (Moved × Option DataError)
  | [], moved => pure (moved, none)
  | key :: keys, moved => do
    match ← read fun s => get s.docs key with
    | none => writeOpenDocs keys moved
    | some entry => do
      let backend ← read backend
      update (setDoc key (entry.folded host.engine))
      match ← attempt (storage (.write backend (.doc key entry.doc.exportCompacted))) with
      | .error e => pure (moved.commit key entry, some e)
      | .ok () => do
        dropDeltaLog host backend key
        writeOpenDocs keys
          { moved.commit key entry with
            migrated := (moved.commit key entry).migrated ++ [(key, entry.doc.measuredBytes host.engine)] }

def persistSpaces : List SpaceName → DataM Unit
  | [] => pure ()
  | space :: spaces => do
    persistSpace space
    persistSpaces spaces

def persistDocMetas : List DocKey → DataM Unit
  | [] => pure ()
  | key :: keys => do
    match ← read fun s => get s.docMeta key with
    | none => persistDocMetas keys
    | some removal => do
      let backend ← read backend
      storage (.write backend (.docMeta key removal))
      persistDocMetas keys

def persistIndexes : DataM Unit := do
  let spaces ← read fun s => s.spaces.keys
  persistSpaces spaces
  let removals ← read fun s => s.docMeta.keys
  persistDocMetas removals

def LoadedDoc.migrated (compactedBytes : ℕ) (entry : LoadedDoc) : LoadedDoc :=
  { entry with
    nextSeq := 0
    logBytes := 0
    compactedBytes := compactedBytes
    doc := entry.doc.markCompacted compactedBytes }

def DataLayer.settleMoved : DataLayer :=
  moved.migrated.foldl (fun s m => s.modifyDoc m.1 (LoadedDoc.migrated m.2)) s

def DataLayer.rewindMoved : DataLayer :=
  moved.committed.foldl (fun s key => s.rewind key) s

def writeOpenDocsInto : DataM (Moved × Option DataError) := do
  let keys ← read fun s => s.docs.keys
  let written ← writeOpenDocs host keys ⟨[], []⟩
  match written.2 with
  | some e => pure (written.1, some e)
  | none => do
    match ← attempt persistIndexes with
    | .error e => pure (written.1, some e)
    | .ok () => pure (written.1, none)

def setDataStorage (backend : ℕ) : DataM Unit := do
  let previous ← read DataLayer.backend
  update fun s => { s with backend := backend }
  let moved ← writeOpenDocsInto host
  match moved.2 with
  | some e => do
    update fun s => { s.rewindMoved moved.1 with backend := previous }
    raise e
  | none => update (settleMoved moved.1)

end

end OfflineProtocol
