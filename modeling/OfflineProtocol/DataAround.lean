import OfflineProtocol.DataIsolation

/-! Opening, announcing and flushing around one document: what none of these does
to a document they are not about. -/
namespace OfflineProtocol
open KeyedTable FaultySchedule CausalPool StateRecord
open Interruption (Fault Part Outcome)

structure Surrounds (allowed : StorageOp → Fault → Prop) (host : DataHost) (k : DocKey)
    (J K : Part DataLayer StorageOp → Prop) : Prop extends Isolates allowed k J K where
  listed : ∀ backend f, ¬allowed (.list backend .deltaLog) (.failed f)
  opens : ∀ p entry, J p → get p.durable.docs k = none → k.1 ∈ p.durable.spaces →
    LoadedFrom host.engine p.durable.stored k entry → J ⟨p.durable.enter k entry, p.log⟩

section
variable {k key : DocKey} {s : DataLayer}

lemma keepsDoc_setDoc (hkey : key ≠ k) : KeepsDoc k s (s.setDoc key entry) :=
  ⟨rfl, rfl, get_insert_ne (Ne.symm hkey), fun _ => id, fun _ => id, fun _ => id⟩

lemma get_modifyDoc (f) : get (s.modifyDoc k f).docs k = (get s.docs k).map f := by
  show get (modify s.docs k f) k = _
  rw [get_modify, if_pos rfl]

lemma keepsDoc_modifyDoc (hkey : key ≠ k) (f) : KeepsDoc k s (s.modifyDoc key f) := by
  refine ⟨rfl, rfl, ?_, fun _ => id, fun _ => id, fun _ => id⟩
  show get (modify s.docs key f) k = _
  rw [get_modify, if_neg (Ne.symm hkey)]

lemma mem_addName {doc name} : name ∈ addName docs doc ↔ name = doc ∨ name ∈ docs := by
  unfold addName
  split
  · rename_i hin
    exact ⟨.inr, fun h => h.elim (fun he => he ▸ hin) id⟩
  · exact List.mem_orderedInsert _

lemma names_enter {space doc}
    (h : doc ∈ s.names space) : doc ∈ (s.enter key entry).names space := by
  show doc ∈ (get (modify s.spaces key.1 _) space).getD []
  rw [get_modify]
  split
  · rename_i heq
    subst heq
    unfold DataLayer.names at h
    cases hget : get s.spaces key.1 with
    | none =>
      rw [hget] at h
      cases h
    | some docs =>
      rw [hget] at h
      exact mem_addName.2 (.inr h)
  · exact h

lemma keepsDoc_enter (hkey : key ≠ k) : KeepsDoc k s (s.enter key entry) :=
  ⟨rfl, rfl, get_insert_ne (Ne.symm hkey), fun _ hs => mem_modify.2 hs,
    fun _ hn => names_enter hn, fun _ => id⟩

end

section
variable {allowed : StorageOp → Fault → Prop} {host : DataHost} {P K : Part DataLayer StorageOp → Prop}
  {E : DataError → Part DataLayer StorageOp → Prop}

lemma loadSpace_loaded {space} (h : ∀ p, P p → space ∈ p.durable.spaces) :
    Spec allowed P (loadSpace host space) (fun _ => P) E K := by
  exact .consult (fun p hp => decide_eq_true (h p hp)) .skip

lemma openDoc_open (h : ∀ p, P p → key ∈ p.durable.docs) :
    Spec allowed P (openDoc host key) (fun _ => P) E K := by
  exact .consult (fun p hp => decide_eq_true (h p hp)) .skip

lemma tolerateTooLarge_spec (hm : Spec allowed P m (fun _ => Q)
      (fun e p => (e = .docTooLarge → Q p) ∧ (e ≠ .docTooLarge → R p)) K) :
    Spec allowed P (tolerateTooLarge m) (fun _ => Q) (fun _ => R) K := by
  refine .bind (Q := fun r p => match r with
      | .ok _ => Q p
      | .error e => (e = .docTooLarge → Q p) ∧ (e ≠ .docTooLarge → R p)) (.attempt hm)
    fun r => ?_
  cases r with
  | ok _ => exact .skip
  | error e =>
    cases e with
    | docTooLarge => exact .pure fun _ hp => hp.1 rfl
    | _ => exact .raise fun _ hp => hp.2 (by simp)

end

namespace Surrounds
variable {allowed : StorageOp → Fault → Prop} {host : DataHost} {k : DocKey}
  {J K : Part DataLayer StorageOp → Prop} (h : Surrounds allowed host k J K)
include h
variable (space : SpaceName) (key : DocKey)

lemma holding (entry) :
    Surrounds allowed host k (fun p => J p ∧ get p.durable.docs k = some entry) K where
  toIsolates :=
    { loaded := fun p hp => h.loaded p hp.1
      call := fun p op fault hop hall hp =>
        (h.call p op fault hop hall hp.1).and (by rw [after_docs]; exact hp.2)
      memory := fun p s hs hp => ⟨h.memory p s hs hp.1, hs.doc.trans hp.2⟩
      purge := fun p key fault hkey hall hdoc hgone hp =>
        (h.purge p key fault hkey hall hdoc hgone hp.1).and (by rw [after_docs]; exact hp.2) }
  listed := h.listed
  opens p entry' hp hnone := by
    rw [hp.2] at hnone
    cases hnone

lemma and (h' : Surrounds allowed host k J' K') :
    Surrounds allowed host k (fun p => J p ∧ J' p) (fun p => K p ∧ K' p) where
  loaded p hp := h.loaded p hp.1
  call p op fault hop hall hp := by
    have hleft := h.call p op fault hop hall hp.1
    have hright := h'.call p op fault hop hall hp.2
    cases fault <;> exact ⟨hleft, hright⟩
  memory p s hs hp := ⟨h.memory p s hs hp.1, h'.memory p s hs hp.2⟩
  purge p key fault hkey hall hdoc hgone hp := by
    have hleft := h.purge p key fault hkey hall hdoc hgone hp.1
    have hright := h'.purge p key fault hkey hall hdoc hgone hp.2
    cases fault <;> exact ⟨hleft, hright⟩
  listed := h.listed
  opens p entry hp hnone hspace hload :=
    ⟨h.opens p entry hp.1 hnone hspace hload, h'.opens p entry hp.2 hnone hspace hload⟩

lemma openDoc :
    Spec allowed J (openDoc host key) (fun _ p => J p ∧ key ∈ p.durable.docs) (fun _ => J) K := by
  refine h.toIsolates.openDoc h.listed key fun p entry hp hnone hspace hload => ?_
  by_cases hk : key = k
  · rw [hk] at hspace hload ⊢
    exact h.opens p entry hp (hnone hk) hspace hload
  · exact h.memory p _ (keepsDoc_enter hk) hp

lemma readDoc {α : Type} {key} (f : DataDoc → α) : Upholds allowed J K (readDoc host key f) := by
  refine .bind (h.openDoc key) fun _ => ?_
  refine .bind (Q := fun _ => J) (.read fun _ hp => hp.1) fun found => ?_
  cases found with
  | none => exact .raise fun _ => id
  | some entry => exact .skip

lemma persistSpace : Upholds allowed J K (persistSpace space) := by
  refine .peek fun backend => ?_
  refine .peek fun found => ?_
  cases found with
  | none => exact .skip
  | some record => exact h.storage rfl

lemma reviveDoc : Upholds allowed J K (reviveDoc key) := by
  refine .peek fun found => ?_
  cases found with
  | none => exact .skip
  | some removal =>
    dsimp only
    split
    · exact .skip
    refine .peek fun backend => ?_
    refine .bind (h.storage ?_) fun _ => h.update fun s =>
      ⟨rfl, rfl, rfl, fun _ => id, fun _ => id, fun _ => id⟩
    simp [StorageOp.spares, isOf, removes]

lemma dataCreateDoc : Upholds allowed J K (dataCreateDoc host key) := by
  refine .bind ((h.loadSpace).post fun _ _ hp => hp.1) fun _ => ?_
  refine .bind (h.reviveDoc key) fun _ => ?_
  refine .bind ((h.openDoc key).post fun _ _ hp => hp.1) fun _ => h.persistSpace key.1

lemma dataListDocs : Upholds allowed J K (dataListDocs host space) := by
  exact .bind h.loadSpace fun _ => .read fun _ hp => hp.1

lemma versionsOf {docs : List DocName} : Upholds allowed J K (versionsOf host space docs) := by
  induction docs with
  | nil => exact .skip
  | cons doc docs ih =>
    refine .bind (h.readDoc DataDoc.applied).attempt_keeps fun version => ?_
    refine .bind ih fun rest => ?_
    cases version <;> exact .skip

lemma dataSyncVersions : Upholds allowed J K (dataSyncVersions host space) :=
  .bind (h.dataListDocs space) fun _ => h.versionsOf space

lemma dataSyncTombstones : Upholds allowed J K (dataSyncTombstones host space) :=
  .bind h.loadSpace fun _ => .read fun _ hp => hp.1

section
variable {E : DataError → Part DataLayer StorageOp → Prop}
variable (space : SpaceName) (doc : DocName) (delta : Blob) (fromPeer : Bool)

lemma sendSyncFrame {body} :
    Spec allowed J ((offerOps host space).sendSyncFrame body) (fun _ => J) E K :=
  h.update (f := fun s => { s with sent := s.sent ++ [⟨space, body, s.stored⟩] }) fun _ =>
    ⟨rfl, rfl, rfl, fun _ => id, fun _ => id, fun _ hf => List.mem_append_left _ hf⟩

lemma sendBodies {bodies} :
    Spec allowed J ((offerOps host space).sendBodies bodies) (fun _ => J) E K := by
  induction bodies with
  | nil => exact .skip
  | cons body bodies ih => exact .bind (h.sendSyncFrame space) fun _ => ih

lemma sendVersionFrames {offer reply forcePartial} :
    Spec allowed J ((offerOps host space).sendVersionFrames offer reply forcePartial)
      (fun _ => J) E K :=
  h.sendBodies space

lemma tombstonesFor : Spec allowed J (offerOps host space).tombstonesFor (fun _ => J) E K := by
  unfold offerOps
  split
  · exact .bind (h.dataSyncTombstones space).attempt_keeps fun _ => .skip
  · exact .skip

omit h in
lemma interestFor : Spec allowed J (offerOps host space).interestFor (fun _ => J) E K := by
  unfold offerOps
  dsimp only
  split
  · exact .read fun _ => id
  · exact .skip

lemma offerVersions : Spec allowed J (offerOps host space).offerVersions (fun _ => J) E K := by
  have hversion : Spec allowed J (offerOps host space).dataSyncVersions (fun _ => J) E K :=
    .bind (h.dataSyncVersions space).attempt_keeps fun _ => .skip
  refine .bind hversion fun versions => ?_
  cases versions with
  | none => exact .skip
  | some docs =>
    exact .bind (h.tombstonesFor space) fun gone => .bind (interestFor space) fun want =>
      h.sendVersionFrames space

lemma nudgeDataSync :
    Spec allowed J ((offerOps host space).nudgeDataSync fromPeer) (fun _ => J) E K := by
  unfold OfferOps.nudgeDataSync
  split
  · exact h.offerVersions space
  · exact .skip

lemma sendDelta :
    Spec allowed J ((offerOps host space).sendDelta doc delta fromPeer) (fun _ => J) E K := by
  unfold OfferOps.sendDelta
  split
  · exact h.nudgeDataSync space fromPeer
  · exact h.sendSyncFrame space

lemma armDataSyncSettle :
    Spec allowed J ((offerOps host space).armDataSyncSettle doc) (fun _ => J) E K :=
  h.update (f := fun s => { s with
      settle := s.settle.insert space (addName ((get s.settle space).getD []) doc) }) fun _ =>
    ⟨rfl, rfl, rfl, fun _ => id, fun _ => id, fun _ => id⟩

lemma pushDataDelta :
    Spec allowed J ((offerOps host space).pushDataDelta doc delta fromPeer) (fun _ => J) E K := by
  unfold OfferOps.pushDataDelta
  split
  · split
    · exact h.sendDelta space doc delta fromPeer
    · exact .bind (h.armDataSyncSettle space doc) fun _ => h.sendDelta space doc delta fromPeer
  · exact .skip

lemma announceCommit {key fromPeer delta oversized} :
    Spec allowed J (announceCommit host key fromPeer delta oversized) (fun _ => J) E K := by
  unfold OfflineProtocol.announceCommit
  split
  · exact h.nudgeDataSync key.1 fromPeer
  · exact h.pushDataDelta key.1 key.2 delta fromPeer

end

variable {key : DocKey}

lemma deleteOther {key} (hkey : key ≠ k) {keys : List (DocKey × ℕ)} :
    Upholds allowed J K (deleteDeltas backend (keys.filter fun x => x.1 = key)) := by
  apply deleteDeltas_spec
  intro x hx
  have hxk : x.1 = key := of_decide_eq_true (List.mem_filter.1 hx).2
  apply h.storage
  simp [StorageOp.spares, StateKey.isOf, hxk, hkey]

lemma dropDeltaLog {key} (hkey : key ≠ k) :
    Upholds allowed J K (dropDeltaLog host backend key) := by
  have hlist : Upholds allowed J K (listDeltaLog host backend) :=
    .bind (h.storage rfl) fun _ => .read fun _ => id
  refine .bind hlist.attempt_keeps fun listed => ?_
  cases listed with
  | ok keys => exact .bind (h.deleteOther hkey) fun _ => .skip
  | error e => exact .skip

section
variable (hkey : key ≠ k)
include hkey

lemma compactDoc : Upholds allowed J K (compactDoc host key) := by
  refine .peek fun found => ?_
  cases found with
  | none => exact .skip
  | some entry =>
    dsimp only
    split
    · refine .peek fun backend => ?_
      refine .bind (h.storage ?_) fun _ => .bind (h.dropDeltaLog hkey) fun _ =>
        h.update fun s => keepsDoc_setDoc hkey
      simp [StorageOp.spares, isOf, removes, hkey]
    · exact .skip

lemma writeCommit {seq delta oversized} :
    Upholds allowed J K (writeCommit host key seq delta oversized) := by
  unfold OfflineProtocol.writeCommit
  split
  · exact h.compactDoc hkey
  refine .peek fun backend => h.storage ?_
  simp [StorageOp.spares, isOf, removes, hkey]

lemma compactWhen (due) : Upholds allowed J K (compactWhen host due key) := by
  unfold OfflineProtocol.compactWhen
  split
  · exact h.compactDoc hkey
  · exact .skip

lemma finishFlush {fromPeer delta oversized} :
    Upholds allowed J K (finishFlush host key fromPeer delta oversized) := by
  refine .peek fun found => ?_
  cases found with
  | none => exact .raise fun _ => id
  | some entry =>
    refine .bind (h.update fun s => keepsDoc_setDoc hkey) fun _ => ?_
    refine .bind h.announceCommit fun _ => ?_
    refine .bind (h.compactWhen hkey _) fun _ => ?_
    refine .bind (h.update fun s => keepsDoc_modifyDoc hkey _) fun _ => ?_
    split
    · exact .raise fun _ => id
    · exact .skip

/-- A flush of one document stays clear of the others. -/
lemma flushDocFrom {fromPeer} : Upholds allowed J K (flushDocFrom host key fromPeer) := by
  have hrew : Upholds allowed J K (update (.rewind key) : DataM Unit) :=
    h.update fun s => keepsDoc_modifyDoc hkey _
  refine .peek fun found => ?_
  cases found with
  | none => exact .skip
  | some entry =>
    dsimp only
    cases entry.doc.pendingDelta with
    | none => exact .skip
    | some delta =>
      refine .bind (h.update fun s => keepsDoc_setDoc hkey) fun _ => ?_
      split
      · exact .bind hrew fun _ => .raise fun _ => id
      refine .bind (h.writeCommit hkey).attempt_keeps fun written => ?_
      cases written with
      | error e => exact .bind hrew fun _ => .raise fun _ => id
      | ok _ => exact h.finishFlush hkey

lemma dataFlush : Upholds allowed J K (dataFlush host key) :=
  .bind ((h.openDoc key).post fun _ _ hp => hp.1) fun _ => h.flushDocFrom hkey

lemma withDoc {growth change} : Upholds allowed J K (withDoc host key growth change) := by
  refine .bind (h.openDoc key) fun _ => ?_
  refine .bind (Q := fun _ => J) (.read fun _ hp => hp.1) fun found => ?_
  cases found with
  | none => exact .raise fun _ => id
  | some entry =>
    dsimp only
    split
    · exact .raise fun _ => id
    cases entry.doc.edit host.engine change with
    | none => exact .raise fun _ => id
    | some doc => exact h.update fun s => keepsDoc_setDoc hkey

lemma dataApplyRemote {blob} : Upholds allowed J K (dataApplyRemote host key blob) := by
  refine .bind (h.openDoc key) fun _ => ?_
  refine .bind (Q := fun _ => J) (.read fun _ hp => hp.1) fun found => ?_
  cases found with
  | none => exact .raise fun _ => id
  | some entry =>
    dsimp only
    cases entry.doc.importRemote host.engine blob with
    | none => exact .raise fun _ => id
    | some imported =>
      refine .bind (h.update fun s => keepsDoc_setDoc hkey) fun _ => ?_
      split
      · exact .bind (tolerateTooLarge_spec ((h.flushDocFrom hkey).raising
          (fun _ _ hp => ⟨fun _ => hp, fun _ => hp⟩))) fun _ =>
          .bind (h.persistSpace key.1) fun _ => .skip
      · exact .skip

end

end Surrounds

end OfflineProtocol
