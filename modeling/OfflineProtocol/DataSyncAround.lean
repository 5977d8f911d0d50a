import OfflineProtocol.DataAround
import OfflineProtocol.DataSync

/-! Applying what a peer sends, around one document: the checks a blob passes touch no
document, and an import touches the one it is for. -/
namespace OfflineProtocol
open KeyedTable FaultySchedule CausalPool
open Interruption (Fault Part Outcome)

namespace Surrounds
variable {allowed : StorageOp → Fault → Prop} {host : DataHost} {k : DocKey}
  {J K : Part DataLayer StorageOp → Prop} (h : Surrounds allowed host k J K)
include h

section
variable {E : DataError → Part DataLayer StorageOp → Prop}
variable (key : DocKey) (space : SpaceName)

lemma persistSyncRecord {record} :
    Spec allowed J (persistSyncRecord space record) (fun _ => J) E K := by
  refine .peek fun backend => ?_
  have hwrite : Upholds allowed J K (OfflineProtocol.storage (.write backend (.sync space record))) :=
    h.storage rfl
  exact .bind hwrite.attempt_keeps fun _ => .skip

lemma loadSyncRecord : Spec allowed J (loadSyncRecord space) (fun _ => J) E K := by
  refine .peek fun backend => ?_
  have hread : Upholds allowed J K
      (OfflineProtocol.readRecord backend (.sync space) fun b => get b.sync space) :=
    .bind (h.storage rfl) fun _ => .read fun _ hp => hp
  refine .bind hread.attempt_keeps fun found => ?_
  dsimp only
  split
  · exact .skip
  · exact .bind (h.persistSyncRecord space) fun _ => .skip

lemma attemptLoad :
    Spec allowed J (attempt (OfflineProtocol.loadSpace host space)) (fun _ => J) E K :=
  ((h.loadSpace).post fun _ _ hp => hp.1).attempt_keeps

lemma dataSpaceAdmitsDoc : Spec allowed J (dataSpaceAdmitsDoc host key) (fun _ => J) E K := by
  refine .bind (h.attemptLoad key.1) fun loaded => ?_
  cases loaded with
  | error e => exact .skip
  | ok _ => exact .read fun _ hp => hp

lemma loadedDocFloor : Spec allowed J (loadedDocFloor host key) (fun _ => J) E K := by
  refine .bind (h.attemptLoad key.1) fun loaded => ?_
  cases loaded with
  | error e => exact .skip
  | ok _ => exact .read fun _ hp => hp

lemma dataBlobBelowFloor {blob} :
    Spec allowed J (dataBlobBelowFloor host key blob) (fun _ => J) E K := by
  refine .bind (h.loadedDocFloor key) fun floor => ?_
  cases floor with
  | none => exact .skip
  | some floor => cases blob <;> exact .skip

lemma judgedBelowFloor {record blob} :
    Spec allowed J (judgedBelowFloor host key record blob) (fun _ => J) E K := by
  refine .bind (h.loadedDocFloor key) fun floor => ?_
  cases floor with
  | none => exact .skip
  | some floor =>
    exact .bind (h.persistSyncRecord key.1) fun _ =>
      .bind (h.dataBlobBelowFloor key) fun _ =>
      .bind (h.persistSyncRecord key.1) fun _ => .skip

lemma requestDocCatchUp {doc} :
    Spec allowed J ((offerOps host space).requestDocCatchUp doc) (fun _ => J) E K := by
  have hversion : Spec allowed J ((offerOps host space).docVersion doc) (fun _ => J) E K :=
    .bind (h.readDoc DataDoc.applied).attempt_keeps fun _ =>
      .skip
  refine .bind hversion fun version => ?_
  cases version with
  | none => exact .skip
  | some version => exact h.sendVersionFrames space

lemma answerImport {kind outcome} :
    Spec allowed J (answerImport host key kind outcome) (fun _ => J) E K := by
  unfold OfflineProtocol.answerImport
  cases outcome with
  | error e => exact .skip
  | ok outcome =>
    cases outcome with
    | parked =>
      cases kind with
      | delta => exact h.requestDocCatchUp key.1
      | snapshot => exact .skip
    | refusedTrimmedHistory =>
      cases kind with
      | delta => exact h.sendSyncFrame key.1
      | snapshot => exact .skip
    | _ => exact .skip

lemma nudgeStranded (leftPending outcome) :
    Spec allowed J (nudgeStranded host key leftPending outcome) (fun _ => J) E K := by
  unfold OfflineProtocol.nudgeStranded
  split
  · exact h.nudgeDataSync key.1 false
  · exact .skip

end

variable {key : DocKey} {E : DataError → Part DataLayer StorageOp → Prop}

lemma dataReviveRemovedDoc {key} : Upholds allowed J K (dataReviveRemovedDoc host key) :=
  .bind ((h.loadSpace).post fun _ _ hp => hp.1) fun _ => h.reviveDoc key

lemma applyContainedBlob_of {blob : Option Blob} {kind : BlobKind} (himport : ∀ record,
      Spec allowed J (importContained host key record blob kind) (fun _ => J) E K) :
    Spec allowed J (applyContainedBlob host key blob kind) (fun _ => J) E K := by
  refine .peek fun wanted => ?_
  split
  · refine .bind (h.dataSpaceAdmitsDoc key) fun admitted => ?_
    split
    · refine .bind (h.loadSyncRecord key.1) fun record => ?_
      split
      · exact .skip
      refine .bind (h.judgedBelowFloor key) fun below => ?_
      split
      · exact .skip
      refine .bind (h.dataReviveRemovedDoc).attempt_keeps fun revived => ?_
      cases revived with
      | error e => exact .skip
      | ok _ => exact himport record
    · exact .skip
  · exact .skip

lemma preFlush (hkey : key ≠ k) : Spec allowed J (preFlush host key) (fun _ => J) E K := by
  refine .bind (h.dataFlush hkey).attempt_keeps fun flushed => ?_
  cases flushed with
  | ok _ => exact .skip
  | error e => cases e <;> exact .skip

lemma importContained (hkey : key ≠ k) {record blob} {kind} :
    Spec allowed J (importContained host key record blob kind) (fun _ => J) E K :=
  .bind (h.preFlush hkey) fun _ => .bind (h.persistSyncRecord key.1) fun _ =>
    .bind (h.dataApplyRemote hkey).attempt_keeps fun _ =>
    .bind (h.persistSyncRecord key.1) fun _ =>
    .bind (h.answerImport key) fun _ => h.nudgeStranded key _ _

/-- A blob for another document stays clear of this one. -/
lemma applyContainedBlob (hkey : key ≠ k) {blob kind} :
    Spec allowed J (applyContainedBlob host key blob kind) (fun _ => J) E K :=
  h.applyContainedBlob_of fun _ => h.importContained hkey

end Surrounds

end OfflineProtocol
