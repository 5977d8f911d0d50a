import OfflineProtocol.CausalPool

/-! The replicated document and its size policy. A document is a set of changes
under a causal order and a version is the set of changes it covers; how the engine
encodes either is left to it, up to the number of bytes it takes. -/
namespace OfflineProtocol
open CausalPool

abbrev Change := ℕ

abbrev Version := Finset Change

/-- Encoded changes. A snapshot carries a whole document, without the history
below `base`. -/
structure Blob where
  changes : Finset Change
  isSnapshot : Bool
  base : Version
  deriving DecidableEq

/-- The CRDT engine: what each change depends on, which changes of the same
replica came before it, and how large its encodings are. -/
structure Engine where
  causality : Causality Change
  earlier : Change → Finset Change
  bytes : Blob → ℕ
  versionBytes : Version → ℕ

def maxDocBytes : ℕ := 1024 * 1024
def docSizeWarnBytes : ℕ := 768 * 1024
def compactMinDeltaLogBytes : ℕ := 64 * 1024
def compactDeltaLogRatio : ℕ := 4
def compactMaxCommits : ℕ := 1024
def maxProtocolStateRecordBytes : ℕ := 4 * 1024 * 1024

def shouldCompact (deltaLogBytes compactedDocBytes commitsSinceCompaction : ℕ) : Bool :=
  if compactMaxCommits ≤ commitsSinceCompaction then true
  else max (compactedDocBytes * compactDeltaLogRatio) compactMinDeltaLogBytes < deltaLogBytes

inductive SizeVerdict
  | ok
  | warn
  | tooLarge
  deriving DecidableEq

def sizeVerdict (compactedBytes : ℕ) : SizeVerdict :=
  if maxDocBytes < compactedBytes then .tooLarge
  else if docSizeWarnBytes ≤ compactedBytes then .warn
  else .ok

def needsSizeCheck (lastMeasuredBytes deltaBytesSince : ℕ) : Bool :=
  docSizeWarnBytes ≤ lastMeasuredBytes + deltaBytesSince

inductive ImportOutcome
  | applied
  | parked
  deriving DecidableEq

inductive RemoteImport
  | applied
  | alreadyHave
  | parked
  | refusedTrimmedHistory
  deriving DecidableEq

structure DataDoc where
  applied : Finset Change
  parked : Finset Change
  shallowSince : Version
  exported : Version
  previousExported : Option Version
  commitsSinceCompaction : ℕ
  lastMeasuredBytes : ℕ
  deltaBytesSinceMeasure : ℕ

namespace DataDoc

def new : DataDoc := ⟨∅, ∅, ∅, ∅, none, 0, 0, 0⟩

def pool (doc : DataDoc) : Finset Change := doc.applied ∪ doc.parked

variable (eng : Engine) (doc : DataDoc)

def edit (change : Change) : Option DataDoc :=
  if eng.causality.past change ⊆ doc.applied then
    some { doc with applied := insert change doc.applied }
  else none

def afterImport (blob : Blob) : DataDoc :=
  let pool := doc.pool ∪ blob.changes
  { doc with
    applied := ready eng.causality pool
    parked := pool \ ready eng.causality pool
    shallowSince :=
      if blob.isSnapshot ∧ doc.applied = ∅ then blob.base else doc.shallowSince }

def importOutcome (blob : Blob) : ImportOutcome :=
  if blob.changes ⊆ (doc.afterImport eng blob).applied then .applied else .parked

def alreadyApplied (blob : Blob) : Bool := blob.changes ⊆ doc.applied

def startVersion (changes : Finset Change) : Version := changes.biUnion eng.earlier \ changes

def spansTrimmedHistory (blob : Blob) : Bool :=
  if doc.shallowSince = ∅ then false
  else if blob.isSnapshot then ¬doc.applied ⊆ blob.changes
  else startVersion eng blob.changes ⊆ doc.shallowSince

def importRemote : Option Blob → Option (RemoteImport × DataDoc)
  | none => none
  | some blob =>
    if doc.alreadyApplied blob then some (.alreadyHave, doc)
    else if doc.spansTrimmedHistory eng blob then some (.refusedTrimmedHistory, doc)
    else
      match doc.importOutcome eng blob with
      | .applied => some (.applied, doc.afterImport eng blob)
      | .parked => some (.parked, doc.afterImport eng blob)

def markPersisted : DataDoc := { doc with exported := doc.applied }

def pendingDelta : Option Blob :=
  if doc.applied = doc.exported then none else some ⟨doc.applied \ doc.exported, false, ∅⟩

variable {doc} in
lemma pendingDelta_changes {delta : Blob} (h : doc.pendingDelta = some delta) :
    delta.changes = doc.applied \ doc.exported := by
  unfold pendingDelta at h
  split at h
  · cases h
  · rw [← Option.some.inj h]

variable {doc} in
lemma pendingDelta_none (h : doc.pendingDelta = none) : doc.applied = doc.exported := by
  unfold pendingDelta at h
  split at h
  · assumption
  · cases h

def committed (delta : Blob) : DataDoc :=
  { doc with
    exported := doc.applied
    previousExported := some doc.exported
    commitsSinceCompaction := doc.commitsSinceCompaction + 1
    deltaBytesSinceMeasure := doc.deltaBytesSinceMeasure + eng.bytes delta }

def rewindLastCommit : DataDoc :=
  match doc.previousExported with
  | some previous =>
    { doc with
      exported := previous
      previousExported := none
      commitsSinceCompaction := doc.commitsSinceCompaction - 1 }
  | none => doc

def exportCompacted : Blob := ⟨doc.applied, true, doc.applied⟩

def measuredBytes : ℕ := eng.bytes doc.exportCompacted

def measure : DataDoc :=
  { doc with lastMeasuredBytes := doc.measuredBytes eng, deltaBytesSinceMeasure := 0 }

def checkSize : (SizeVerdict × Option ℕ) × DataDoc :=
  if needsSizeCheck doc.lastMeasuredBytes doc.deltaBytesSinceMeasure then
    ((sizeVerdict (doc.measuredBytes eng), some (doc.measuredBytes eng)), doc.measure eng)
  else ((.ok, none), doc)

@[simp] lemma checkSize_applied : (doc.checkSize eng).2.applied = doc.applied := by
  unfold checkSize
  split <;> rfl

@[simp] lemma checkSize_exported : (doc.checkSize eng).2.exported = doc.exported := by
  unfold checkSize
  split <;> rfl

@[simp] lemma checkSize_previousExported :
    (doc.checkSize eng).2.previousExported = doc.previousExported := by
  unfold checkSize
  split <;> rfl

def markCompacted (compactedBytes : ℕ) : DataDoc :=
  { doc with
    commitsSinceCompaction := 0
    lastMeasuredBytes := compactedBytes
    deltaBytesSinceMeasure := 0 }

def restoreBookkeeping (compactedBytes logBytes commits : ℕ) : DataDoc :=
  { doc with
    lastMeasuredBytes := compactedBytes
    deltaBytesSinceMeasure := logBytes
    commitsSinceCompaction := commits }

end DataDoc

end OfflineProtocol
