import OfflineProtocol.DataAnnounced
import OfflineProtocol.DataCrashes
import OfflineProtocol.DataSyncAround

/-! Runs of edits, flushes, inbound blobs and moves to another backend: whatever
storage holds of the local edits was made known to the peer. -/
namespace OfflineProtocol
open KeyedTable FaultySchedule CausalPool Finset News
open Interruption (Fault Part Outcome)

namespace News
variable {n : News} {eng : Engine} {p : Part DataLayer StorageOp}

lemma owe_due (hnone : n.due = ∅) : n.owe ∅ = n := by
  rw [← hnone]
  rfl

lemma Holds.clear {due} (h : (n.owe due).Holds eng p) (hnone : n.due = ∅)
    (hother : ∀ c ∈ n.edits, c ∉ due) : n.Holds eng p where
  keeps := ⟨h.keeps.loaded, h.keeps.named,
    fun id c hc hin => .inl ((h.keeps.stored id c hc hin).resolve_right (hother c hc)),
    by rw [hnone]; exact empty_subset _, h.keeps.known⟩
  absent hget := ⟨(h.absent hget).1, (h.absent hget).2.1, hnone⟩
  fits entry he := by
    have hfits := h.fits entry he
    exact ⟨hfits.closed, hfits.edits, hfits.known, by rw [hnone]; exact empty_subset _,
      fun c hc hin => .inl ((hfits.marked c hc hin).resolve_right (hother c hc))⟩

lemma Holds.grown (h : n.Holds eng p)
    (he : get p.durable.docs n.k = some entry) (hg : Watch.Grown eng entry copy) :
    n.Holds eng ⟨p.durable.setDoc n.k copy, p.log⟩ := by
  have hopen := mem_of_get he
  have hfits := h.fits entry he
  suffices hnext : n.Awaits eng copy copy ⟨p.durable.setDoc n.k copy, p.log⟩ from hnext.holds
  refine ⟨⟨fun _ => h.keeps.loaded hopen, fun _ => h.keeps.named hopen, h.keeps.stored, h.keeps.due,
    h.keeps.known⟩, get_insert_self, ⟨hg.closed, hfits.edits.trans hg.applied,
    hfits.known.trans hg.applied, hfits.due.trans hg.applied, fun c hc hin => ?_⟩⟩
  rw [hg.exported] at hin
  exact hfits.marked c hc hin

section
variable {allowed : StorageOp → Fault → Prop} (hcalm : Calm allowed) (n : News) (host : DataHost)
  (hactive : host.replicates n.k.1 = true) (hnone : n.due = ∅)
include hcalm hactive hnone

section
variable (hedits : n.edits = ∅)
include hedits

lemma flushDocFrom_quiet :
    Upholds allowed (n.Holds host.engine) (fun _ => False) (flushDocFrom host n.k fromPeer) := by
  have hclear {due : Finset Change} {p : Part DataLayer StorageOp}
      (hp : (n.owe due).Holds host.engine p) : n.Holds host.engine p := by
    apply hp.clear hnone
    rw [hedits]
    simp
  refine .naming (fun s => get s.docs n.k) fun o => ?_
  cases o with
  | none =>
    exact .consult (fun _ hp => hp.2) (.pure fun p hp => hp.1)
  | some entry =>
    refine (flushDocFrom_tells hcalm n host hactive hnone entry fromPeer).mono (fun _ => id)
      (fun _ _ hp => hclear hp.1) (fun _ _ hp => ?_) fun _ => id
    exact hp.elim (fun hp => hclear hp.1.1) fun hp => hp.2

lemma dataFlush_quiet :
    Upholds allowed (n.Holds host.engine) (fun _ => False) (dataFlush host n.k) :=
  .bind (((n.surrounds hcalm host).openDoc n.k).post fun _ _ hp => hp.1) fun _ =>
    flushDocFrom_quiet hcalm n host hactive hnone hedits

lemma dataApplyRemote_quiet {blob} :
    Upholds allowed (n.Holds host.engine) (fun _ => False) (dataApplyRemote host n.k blob) := by
  have hsur := n.surrounds hcalm host
  refine .bind (hsur.openDoc n.k) fun _ => ?_
  refine .bind (Q := fun found p => n.Holds host.engine p ∧ get p.durable.docs n.k = found)
    (.read fun p hp => ⟨hp.1, rfl⟩) fun found => ?_
  cases found with
  | none => exact .raise fun _ hp => hp.1
  | some entry =>
    dsimp only
    split
    · exact .raise fun _ hp => hp.1
    rename_i outcome doc himport
    refine .bind (Q := fun _ => n.Holds host.engine) (.update fun p hp => ?_) fun _ => ?_
    · exact hp.1.grown hp.2 (Watch.grown_import host (hp.1.fits entry hp.2).closed himport).1
    split
    · exact .bind (tolerateTooLarge_spec
        ((flushDocFrom_quiet hcalm n host hactive hnone hedits).raising
          (fun _ _ hp => ⟨fun _ => hp, fun _ => hp⟩))) fun _ =>
        .bind (hsur.persistSpace n.k.1) fun _ => .skip
    · exact .skip

lemma importContained_quiet :
    Spec allowed (n.Holds host.engine) (importContained host n.k record blob kind)
      (fun _ => n.Holds host.engine) E fun _ => False := by
  have hsur := n.surrounds hcalm host
  have hpre : Spec allowed (n.Holds host.engine) (preFlush host n.k)
      (fun _ => n.Holds host.engine) E fun _ => False := by
    refine .bind (dataFlush_quiet hcalm n host hactive hnone hedits).attempt_keeps fun flushed => ?_
    cases flushed with
    | ok _ => exact .skip
    | error e => cases e <;> exact .skip
  exact .bind hpre fun _ => .bind (hsur.persistSyncRecord n.k.1) fun _ =>
    .bind (dataApplyRemote_quiet hcalm n host hactive hnone hedits).attempt_keeps fun _ =>
    .bind (hsur.persistSyncRecord n.k.1) fun _ =>
    .bind (hsur.answerImport n.k) fun _ => hsur.nudgeStranded n.k _ _

end

lemma dataFlush_tells :
    Upholds allowed (n.Holds host.engine) (fun _ => False) (dataFlush host n.k) := by
  refine .bind (Q := fun _ p => ∃ entry, n.OpenAt host.engine entry p)
        (((n.surrounds hcalm host).openDoc n.k).post fun _ p hp => ?_) fun _ =>
    .named fun entry => ?_
  · obtain ⟨entry, he⟩ := Option.isSome_iff_exists.1 (get_isSome_iff.2 hp.2)
    exact ⟨entry, hp.1, he⟩
  have hleft : n.owe (left false (entry.doc.applied \ entry.doc.exported)) = n := owe_due hnone
  have hflush := flushDocFrom_tells hcalm n host hactive hnone entry false
  rw [hleft] at hflush
  exact hflush.mono (fun _ => id) (fun _ _ hp => hp.1)
    (fun _ _ hp => hp.elim (fun hp => hp.1.1) fun hp => hp.2) fun _ => id

/-- Flushing an open document tells every edit in it, or keeps it pending. -/
lemma preFlush_tells : Spec allowed (n.OpenAt host.engine entry) (preFlush host n.k)
      (fun pending p => n.Holds host.engine p ∧ (pending = false → Drained n.k p)) E
      fun _ => False := by
  have howe := owe_due hnone
  have hflush := flushDocFrom_tells hcalm n host hactive hnone entry false
  have hleft : n.owe (left false (entry.doc.applied \ entry.doc.exported)) = n := howe
  rw [hleft] at hflush
  refine .bind (Q := fun flushed p => n.Holds host.engine p ∧
      (flushed = .ok () ∨ flushed = .error .docTooLarge → Drained n.k p)) ?_ fun flushed => ?_
  · refine .attempt (.bind (openDoc_open fun p hp => mem_of_get hp.2) fun _ =>
      hflush.mono (fun _ => id) (fun _ p hp => ⟨hp.1, fun _ => hp.2⟩) (fun e p hp => ?_)
      fun _ => id)
    rcases hp with ⟨hp, -⟩ | ⟨rfl, hp⟩
    · exact ⟨hp.1, fun _ => hp.2⟩
    · exact ⟨hp, fun h => by simp at h⟩
  · cases flushed with
    | ok _ => exact .pure fun _ hp => ⟨hp.1, fun _ => hp.2 (.inl rfl)⟩
    | error e =>
      cases e with
      | docTooLarge => exact .pure fun _ hp => ⟨hp.1, fun _ => hp.2 (.inr rfl)⟩
      | _ => exact .pure fun _ hp => ⟨hp.1, nofun⟩

section
variable (hsure : ¬DocWriteFails allowed n.k)
  (hindex : ∀ backend space docs f, ¬allowed (.write backend (.space space docs)) (.failed f))
include hsure hindex
omit hactive hnone hsure in
lemma persistSpace_sure :
    Spec allowed (n.Holds host.engine) (persistSpace space) (fun _ => n.Holds host.engine) E
      fun _ => False := by
  refine .peek fun backend => ?_
  refine .peek fun found => ?_
  cases found with
  | none => exact .skip
  | some record =>
    exact .operate (fun p _ hp => hp.spared rfl)
      (fun p f hall _ => absurd hall (hindex backend space record f))
      fun p f hall _ => hcalm.uncut _ f hall

lemma dataApplyRemote_tells : Spec allowed
      (fun p => n.Holds host.engine p ∧ (pending = false → Drained n.k p))
      (dataApplyRemote host n.k blob) (fun outcome p => (∃ due, (n.owe due).Holds host.engine p) ∧
        (pending = false ∨ outcome ≠ .applied → n.Holds host.engine p))
      (fun _ => n.Holds host.engine) fun _ => False := by
  refine .bind (Q := fun _ p => n.Holds host.engine p ∧ (pending = false → Drained n.k p))
    ?_ fun _ => ?_
  · cases pending with
    | true =>
      exact ((n.surrounds hcalm host).openDoc n.k).conseq (fun _ hp => hp.1)
        (fun _ _ hp => ⟨hp.1, nofun⟩)
    | false => exact openDoc_open fun p hp => mem_of_get (hp.2 rfl).choose_spec.1
  refine .observe fun found => ?_
  cases found with
  | none => exact .raise fun _ hp => hp.1.1
  | some entry =>
    dsimp only
    split
    · exact .raise fun _ hp => hp.1.1
    rename_i outcome doc himport
    refine .given (φ := Closed host.engine.causality entry.doc.applied ∧
        n.edits ⊆ entry.doc.applied ∧
        (pending = false → entry.doc.applied ⊆ entry.doc.exported))
      (fun p hp => ?_) fun hfacts => ?_
    · refine ⟨(hp.1.1.fits entry hp.2).closed, (hp.1.1.fits entry hp.2).edits, fun hpending => ?_⟩
      obtain ⟨entry', he', hdrain⟩ := hp.1.2 hpending
      rw [hp.2] at he'
      cases he'
      exact hdrain
    obtain ⟨hclosed, hedits, hdrain⟩ := hfacts
    have hgrown := (Watch.grown_import host hclosed himport).1
    generalize ({ entry with
      doc := doc
      historyComplete := entry.historyComplete && outcome ≠ .parked } : LoadedDoc) = entry'
      at hgrown ⊢
    refine .bind (Q := fun _ p => n.OpenAt host.engine entry' p)
      (.update fun p hp => ?_) fun _ => ?_
    · exact ⟨hp.1.1.grown hp.2 hgrown, get_insert_self⟩
    split
    · rename_i happlied
      have hflush := flushDocFrom_tells hcalm n host hactive hnone entry' true
      generalize hdue : entry'.doc.applied \ entry'.doc.exported = due at hflush
      refine .bind (tolerateTooLarge_spec (Q := (n.owe due).Holds host.engine)
        (R := n.Holds host.engine) (hflush.mono (fun _ => id) (fun _ _ hp => hp.1)
          (fun e p hp => ?_) fun _ => id)) fun _ => ?_
      · rcases hp with ⟨hp, hlarge | hfails⟩ | ⟨rfl, hp⟩
        · exact ⟨fun _ => hp.1, fun h => absurd hlarge h⟩
        · exact absurd hfails hsure
        refine ⟨fun h => ?_, fun _ => hp⟩
        cases h
      refine .bind (Q := fun _ => (n.owe due).Holds host.engine) ?_ fun _ =>
        .pure fun p hp => ⟨⟨due, hp⟩, fun h => ?_⟩
      · exact persistSpace_sure hcalm (n.owe due) host hindex
      -- Nothing was pending, so what the import added is not from here.
      have hpending : pending = false := h.resolve_right fun hne => hne happlied
      refine hp.clear hnone fun c hc hin => ?_
      rw [← hdue, mem_sdiff, hgrown.exported] at hin
      exact hin.2 (hdrain hpending (hedits hc))
    · rename_i hother
      exact .pure fun p hp => ⟨⟨∅, (owe_due hnone).symm ▸ hp.1⟩, fun _ => hp.1⟩

lemma importContained_tells : Spec allowed (n.OpenAt host.engine entry)
      (importContained host n.k record blob kind) (fun _ => n.Holds host.engine) E
      fun _ => False := by
  have hsur := n.surrounds hcalm host
  refine .bind (preFlush_tells hcalm n host hactive hnone) fun pending => ?_
  refine .bind (Q := fun _ p => n.Holds host.engine p ∧ (pending = false → Drained n.k p))
    ?_ fun _ => ?_
  · cases pending with
    | true =>
      exact (hsur.persistSyncRecord n.k.1).conseq (fun _ hp => hp.1) (fun _ _ hp => ⟨hp, nofun⟩)
    | false =>
      refine .pre (P := fun p => ∃ entry', n.OpenAt host.engine entry' p ∧
          entry'.doc.applied ⊆ entry'.doc.exported)
        (.named fun entry' => ?_) fun p hp => ?_
      · refine .given (fun _ hp => hp.2) fun hdrain => ?_
        exact ((hsur.holding entry').persistSyncRecord n.k.1).conseq (fun _ hp => hp.1)
          (fun _ p hp => ⟨hp.1, fun _ => ⟨entry', hp.2, hdrain⟩⟩)
      obtain ⟨entry', he', hdrain⟩ := hp.2 rfl
      exact ⟨entry', ⟨hp.1, he'⟩, hdrain⟩
  refine .bind (Q := fun outcome p => (∃ due, (n.owe due).Holds host.engine p) ∧
      (pending = false ∨ outcome.toOption ≠ some .applied → n.Holds host.engine p))
    (.attempt ((dataApplyRemote_tells hcalm n host hactive hnone hsure hindex).mono (fun _ => id)
      (fun outcome p hp => ⟨hp.1, fun h => hp.2 ?_⟩)
      (fun _ p hp => ⟨⟨∅, (owe_due hnone).symm ▸ hp⟩, fun _ => hp⟩) fun _ => id)) fun outcome =>
      ?_
  · exact h.imp id fun hne he => hne (by rw [he]; rfl)
  by_cases hquiet : pending = false ∨ outcome.toOption ≠ some .applied
  · -- Nothing is due, so nothing that follows has to tell it.
    refine .bind ((hsur.persistSyncRecord n.k.1).pre fun _ hp => hp.2 hquiet) fun _ =>
      ?_
    exact .bind (hsur.answerImport n.k) fun _ => hsur.nudgeStranded n.k _ _
  obtain ⟨hpending, happlied⟩ := not_or.1 hquiet
  rw [Bool.not_eq_false] at hpending
  rw [not_not] at happlied
  refine .pre (P := fun p => ∃ due, (n.owe due).Holds host.engine p)
    (.named fun due => ?_) fun _ hp => hp.1
  have hdue := (n.owe due).surrounds hcalm host
  refine .bind (hdue.persistSyncRecord n.k.1) fun _ => ?_
  refine .bind (hdue.answerImport n.k) fun _ => ?_
  rw [nudgeStranded, if_pos (by simp [hpending, happlied])]
  refine .naming (fun s => get s.docs n.k) fun o => ?_
  cases o with
  | none =>
    refine .given (φ := due = ∅) (fun p hp => (hp.1.absent hp.2).2.2) fun hempty => ?_
    rw [hempty, owe_due hnone]
    exact (hsur.nudgeDataSync n.k.1 false).pre fun _ hp => hp.1
  | some entry' =>
    have howe : (n.owe due).owe ∅ = n := owe_due hnone
    refine (nudgeDataSync_tells hcalm (n.owe due) host hactive).post fun _ _ hp => ?_
    rw [howe] at hp
    exact hp.1

lemma applyContainedBlob_tells :
    Spec allowed (n.Holds host.engine) (applyContainedBlob host n.k blob kind)
      (fun _ => n.Holds host.engine) E fun _ => False := by
  refine (n.surrounds hcalm host).applyContainedBlob_of fun record => ?_
  refine .naming (fun s => get s.docs n.k) fun o => ?_
  cases o with
  | none =>
    refine .given (φ := n.edits = ∅) (fun p hp => (hp.1.absent hp.2).1) fun hedits => ?_
    exact (importContained_quiet hcalm n host hactive hnone hedits).pre fun _ hp
      => hp.1
  | some entry =>
    exact importContained_tells hcalm n host hactive hnone hsure hindex

end

end

section
variable {n : News} {eng : Engine} {p : Part DataLayer StorageOp}

section
variable (h : n.Holds eng p) (hedits : n.edits = ∅)
include h hedits

lemma Holds.anyCall (hnone : n.due = ∅)
    {op fault} : n.Holds eng (p.after DataLayer.effect op fault) := by
  have hsent : ∀ frame ∈ p.durable.sent, frame ∈ (p.after .effect op fault).durable.sent := by
    rw [after_sent]
    exact fun _ => id
  refine ⟨⟨?_, ?_, ?_, ?_, fun c hc => Told.mono hsent (h.keeps.known c hc)⟩, ?_, fun entry he =>
    ?_⟩
  · rw [after_docs, after_spaces]
    exact h.keeps.loaded
  · rw [after_docs, after_names]
    exact h.keeps.named
  · rw [hedits]
    simp
  · rw [hnone]
    exact empty_subset _
  · rw [after_docs]
    exact h.absent
  rw [after_docs] at he
  exact .mono hsent (h.fits entry he)

lemma Holds.moved (hnone : n.due = ∅) (backend) :
    n.Holds eng ⟨{ p.durable with backend := backend }, p.log⟩ where
  keeps := by
    refine ⟨h.keeps.loaded, h.keeps.named, ?_, ?_, h.keeps.known⟩
    · rw [hedits]
      simp
    rw [hnone]
    exact empty_subset _
  absent := h.absent
  fits entry he := by
    have hfits := h.fits entry he
    exact ⟨hfits.closed, hfits.edits, hfits.known, hfits.due, hfits.marked⟩

lemma Holds.modifyQuiet (hf : ∀ entry, (f entry).doc.applied = entry.doc.applied) :
    n.Holds eng ⟨p.durable.modifyDoc key f, p.log⟩ := by
  by_cases hkey : key = n.k
  · subst hkey
    refine h.modify fun old hfits => ⟨hf old ▸ hfits.closed, hf old ▸ hfits.edits,
      hf old ▸ hfits.known, hf old ▸ hfits.due, ?_⟩
    rw [hedits]
    simp
  · exact h.memory (keepsDoc_modifyDoc hkey f)

omit h hedits in
lemma rewind_applied (entry : LoadedDoc) :
    ({ entry with doc := entry.doc.rewindLastCommit } : LoadedDoc).doc.applied =
      entry.doc.applied := by
  unfold DataDoc.rewindLastCommit
  split <;> rfl

omit h hedits in
lemma folded_applied (entry : LoadedDoc) :
    (entry.folded eng).doc.applied = entry.doc.applied := by
  unfold LoadedDoc.folded
  split <;> rfl

lemma Holds.rewindMoved {keys : List DocKey} :
    n.Holds eng ⟨keys.foldl (fun s key => s.rewind key) p.durable, p.log⟩ := by
  induction keys generalizing p with
  | nil => exact h
  | cons key keys ih =>
    exact ih (p := ⟨p.durable.rewind key, p.log⟩) (h.modifyQuiet hedits rewind_applied)

lemma Holds.settleMoved {moved : List (DocKey × ℕ)} : n.Holds eng
      ⟨moved.foldl (fun s m => s.modifyDoc m.1 (LoadedDoc.migrated m.2)) p.durable, p.log⟩ := by
  induction moved generalizing p with
  | nil => exact h
  | cons m moved ih =>
    exact ih (p := ⟨p.durable.modifyDoc m.1 (.migrated m.2), p.log⟩)
      (h.modifyQuiet hedits fun _ => rfl)

end

variable {allowed : StorageOp → Fault → Prop} (hcalm : Calm allowed) (n) (host : DataHost)
  (hedits : n.edits = ∅) (hnone : n.due = ∅)
include hcalm hedits hnone

lemma storage_quiet (op) : Upholds allowed (n.Holds host.engine) (fun _ => False) (storage op) :=
  .operate (fun _ _ hp => hp.anyCall hedits hnone)
    (fun _ _ _ hp => hp.anyCall hedits hnone)
    fun _ f hall _ => hcalm.uncut op f hall

lemma dropDeltaLog_quiet (backend key) :
    Spec allowed (n.Holds host.engine) (dropDeltaLog host backend key)
      (fun _ => n.Holds host.engine) E fun _ => False := by
  have hstored := storage_quiet n hcalm host hedits hnone
  have hlist : Upholds allowed (n.Holds host.engine) (fun _ => False) (listDeltaLog host backend) :=
    .bind (hstored _) fun _ => .read fun _ => id
  refine .bind hlist.attempt_keeps fun listed => ?_
  cases listed with
  | ok keys =>
    exact .bind (deleteDeltas_spec fun x _ => hstored _) fun _ => .skip
  | error e => exact .skip

lemma writeOpenDocs_quiet (keys moved) :
    Spec allowed (n.Holds host.engine) (writeOpenDocs host keys moved)
      (fun _ => n.Holds host.engine) E fun _ => False := by
  induction keys generalizing moved with
  | nil => exact .skip
  | cons key keys ih =>
    refine .observe fun found => ?_
    cases found with
    | none =>
      exact (ih moved).pre fun _ hp => hp.1
    | some entry =>
      refine .peek fun backend => ?_
      refine .bind (Q := fun _ => n.Holds host.engine) (.update fun p hp => ?_) fun _ => ?_
      · have hset : p.durable.setDoc key (entry.folded host.engine) =
            p.durable.modifyDoc key (LoadedDoc.folded host.engine) := by
          simp only [DataLayer.setDoc, DataLayer.modifyDoc, KeyedTable.modify, hp.2]
        rw [hset]
        exact hp.1.modifyQuiet hedits folded_applied
      refine .bind (storage_quiet n hcalm host hedits hnone _).attempt_keeps fun written => ?_
      cases written with
      | error e => exact .skip
      | ok _ =>
        exact .bind (dropDeltaLog_quiet n hcalm host hedits hnone backend key) fun _ => ih _

lemma persistIndexes_quiet :
    Upholds allowed (n.Holds host.engine) (fun _ => False) persistIndexes := by
  have hspac (spaces) : Upholds allowed (n.Holds host.engine) (fun _ => False)
      (persistSpaces spaces) := by
    induction spaces with
    | nil => exact .skip
    | cons space spaces ih =>
      exact .bind ((n.surrounds hcalm host).persistSpace space) fun _ => ih
  have hmetas (keys) : Upholds allowed (n.Holds host.engine) (fun _ => False)
      (persistDocMetas keys) := by
    induction keys with
    | nil => exact .skip
    | cons key keys ih =>
      refine .peek fun found =>
        ?_
      cases found with
      | none => exact ih
      | some removal =>
        refine .peek fun backend => ?_
        exact .bind (storage_quiet n hcalm host hedits hnone _) fun _ => ih
  exact .peek fun spaces =>
    .bind (hspac spaces) fun _ => .peek fun removals => hmetas removals

lemma setDataStorage_quiet :
    Upholds allowed (n.Holds host.engine) (fun _ => False) (setDataStorage host backend) := by
  refine .peek fun previous => ?_
  refine .bind (Q := fun _ => n.Holds host.engine)
    (.update fun p hp => hp.moved hedits hnone backend) fun _ => ?_
  have hinto : Upholds allowed (n.Holds host.engine) (fun _ => False) (writeOpenDocsInto host) := by
    refine .peek fun keys => ?_
    refine .bind (writeOpenDocs_quiet n hcalm host hedits hnone keys _) fun written => ?_
    split
    · exact .skip
    refine .bind (persistIndexes_quiet n hcalm host hedits hnone).attempt_keeps fun r => ?_
    cases r <;> exact .skip
  refine .bind hinto fun moved => ?_
  split
  · refine .bind (Q := fun _ => n.Holds host.engine) (.update fun p hp => ?_) fun _ =>
      .raise fun _ => id
    exact (hp.rewindMoved hedits).moved hedits hnone previous
  · exact .update fun p hp => hp.settleMoved hedits

end

structure Unseen (k : DocKey) (c : Change) (p : Part DataLayer StorageOp) : Prop where
  loaded : k ∈ p.durable.docs → k.1 ∈ p.durable.spaces
  stored : ∀ id, c ∉ (p.durable.disk id).changes k
  copy : ∀ entry, get p.durable.docs k = some entry → c ∉ entry.doc.exported

lemma unseen_surrounds (hcalm : Calm allowed) (k) (c) (host) :
    Surrounds allowed host k (Unseen k c) fun _ => False where
  loaded p hp := hp.loaded
  call p op fault hop hall hp := by
    have hnext : Unseen k c (p.after .effect op fault) := by
      refine ⟨?_, fun id => ?_, ?_⟩
      · rw [after_docs, after_spaces]
        exact hp.loaded
      · rw [after_disk]
        split
        · rw [DataBackend.apply_changes (StorageOp.touches_of_spares hop)]
          exact hp.stored id
        · exact hp.stored id
      · rw [after_docs]
        exact hp.copy
    exact hcalm.ends hall hnext
  memory p s hs hp := by
    refine ⟨fun hk => hs.spaces _ (hp.loaded ?_), fun id => ?_, fun entry he => ?_⟩
    · rw [← get_isSome_iff, ← hs.doc, get_isSome_iff]
      exact hk
    · show c ∉ (s.disk id).changes k
      rw [hs.disk]
      exact hp.stored id
    · exact hp.copy entry (hs.doc.symm.trans he)
  purge p key fault hkey hall hdoc _ hp := by
    have hnext : Unseen k c (p.after DataLayer.effect (.delete p.durable.backend key) fault) := by
      refine ⟨?_, fun id => ?_, ?_⟩
      · rw [after_docs, after_spaces]
        exact hp.loaded
      · rw [after_disk]
        split
        · unfold DataBackend.apply
          dsimp only
          split
          · exact fun hin => hp.stored id (DataBackend.remove_subset hin)
          · exact hp.stored id
        · exact hp.stored id
      · rw [after_docs]
        exact hp.copy
    exact hcalm.ends hall hnext
  listed := hcalm.listed
  opens p entry hp hnone hspace hloaded := by
    refine ⟨fun _ => mem_modify.2 hspace, hp.stored, fun entry' he => ?_⟩
    have heq : entry = entry' := by
      have he' : get (p.durable.docs.insert k entry) k = some entry' := he
      rw [get_insert_self] at he'
      exact Option.some.inj he'
    subst heq
    rw [hloaded.exported, hloaded.applied]
    exact fun hin => hp.stored _ (ready_subset hin)

def edited (n : News) (c : Change) : News := { n with edits := insert c n.edits }

lemma withDoc_tells (hcalm : Calm allowed) (n : News) (host growth c) :
    Spec allowed (fun p => n.Holds host.engine p ∧ Unseen n.k c p) (withDoc host n.k growth c)
      (fun _ => (n.edited c).Holds host.engine) (fun _ => n.Holds host.engine)
      fun _ => False := by
  have hsur := (n.surrounds hcalm host).and (unseen_surrounds hcalm n.k c host)
  refine .bind ((hsur.openDoc n.k).mono (fun _ => id) (fun _ _ => id)
    (fun _ _ hp => hp.1) fun _ hp => hp.1) fun _ => ?_
  refine .bind (Q := fun found p => (n.Holds host.engine p ∧ Unseen n.k c p) ∧
      get p.durable.docs n.k = found) (.read fun p hp => ⟨hp.1, rfl⟩) fun found => ?_
  cases found with
  | none => exact .raise fun _ hp => hp.1.1
  | some entry =>
    dsimp only
    split
    · exact .raise fun _ hp => hp.1.1
    split
    · exact .raise fun _ hp => hp.1.1
    rename_i doc hdoc
    refine .update fun p hp => ?_
    obtain ⟨⟨hp, hunsn⟩, he⟩ := hp
    have hgrown := Watch.grown_edit host (hp.fits entry he).closed hdoc
    have hnext := hp.grown he hgrown
    have hadded : c ∈ doc.applied := by
      unfold DataDoc.edit at hdoc
      split at hdoc
      · rw [← Option.some.inj hdoc]
        exact mem_insert_self _ _
      · cases hdoc
    have hget : get (p.durable.setDoc n.k { entry with doc := doc }).docs n.k =
        some { entry with doc := doc } := get_insert_self
    refine ⟨⟨hnext.keeps.loaded, hnext.keeps.named, fun id c' hc' hin => ?_, hnext.keeps.due,
      hnext.keeps.known⟩, fun hnone => ?_, fun entry' he' => ?_⟩
    · rcases mem_insert.1 hc' with rfl | hc'
      · exact absurd hin (hunsn.stored id)
      · exact hnext.keeps.stored id c' hc' hin
    · exact absurd (hget.symm.trans hnone) (by simp)
    have heq := hget.symm.trans he'
    cases heq
    have hfits := hnext.fits _ hget
    refine ⟨hfits.closed, ?_, hfits.known, hfits.due, fun c' hc' hin => ?_⟩
    · exact insert_subset hadded hfits.edits
    rcases mem_insert.1 hc' with rfl | hc'
    · exact absurd (hgrown.exported ▸ hin) (hunsn.copy entry he)
    · exact hfits.marked c' hc' hin

end News

/-- Document records may fail to be written, without effect; every other call
succeeds. -/
def RecordWritesMayFail : StorageOp → Fault → Prop
  | .write _ (.doc _ _), .failed applied => applied = false
  | .write _ (.delta _ _ _), .failed applied => applied = false
  | _, .done => True
  | _, _ => False

def DeltaWritesMayFail (k : DocKey) (op : StorageOp) (fault : Fault) : Prop :=
  RecordWritesMayFail op fault ∧ ∀ id blob f, op = .write id (.doc k blob) → fault ≠ .failed f

inductive SyncOp
  | create (key : DocKey)
  | readVersion (key : DocKey)
  | edit (key : DocKey) (growth : Bool) (change : Change)
  | flush (key : DocKey)
  | receive (key : DocKey) (blob : Option Blob) (kind : BlobKind)
  | setStorage (backend : ℕ)
  | listDocs (space : SpaceName)
  | offer (space : SpaceName)

def SyncOp.perform (host : DataHost) : SyncOp → DataM Unit
  | .create key => dataCreateDoc host key
  | .readVersion key => do
    let _ ← dataDocVersion host key
    pure ()
  | .edit key growth change => withDoc host key growth change
  | .flush key => dataFlush host key
  | .receive key blob kind => applyContainedBlob host key blob kind
  | .setStorage backend => setDataStorage host backend
  | .listDocs space => do
    let _ ← dataListDocs host space
    pure ()
  | .offer space => (offerOps host space).offerVersions

structure EditRun where
  part : Part DataLayer StorageOp
  edits : Finset Change

def SyncOp.edited (k : DocKey) : SyncOp → Outcome DataError Unit → Finset Change
  | .edit key _ change, .returned _ => if key = k then {change} else ∅
  | _, _ => ∅

namespace EditRun
variable (host : DataHost) (k : DocKey)

def step (r : EditRun) (x : SyncOp × Schedule StorageOp) : EditRun :=
  let result := x.1.perform host x.2 r.part
  ⟨result.2, x.1.edited k result.1 ∪ r.edits⟩

def Fresh (r : EditRun) (change : Change) : Prop :=
  (∀ id, change ∉ (r.part.durable.disk id).changes k) ∧
    ∀ entry, get r.part.durable.docs k = some entry → change ∉ entry.doc.exported

/-- What can happen: only document records fail to be written, and edits make new
changes. -/
def machine : EventTrace.Machine EditRun (SyncOp × Schedule StorageOp) where
  apply := step host k
  enabled r x := x.2.Within RecordWritesMayFail ∧
    ∀ growth change, x.1 = .edit k growth change → Fresh k r change

def NonePending (r : EditRun) : Prop :=
  ∀ entry, get r.part.durable.docs k = some entry →
    ∀ c ∈ r.edits, c ∈ entry.doc.applied → c ∈ entry.doc.exported

/-- Where an operation makes every edit it stores known: a move to another backend
and a blob for the document meet no pending edit, or, for the blob, the document's
compacted record is written whenever it has to be. -/
def Announces (r : EditRun) (x : SyncOp × Schedule StorageOp) : Prop :=
  match x.1 with
  | .setStorage _ => NonePending k r
  | .receive key _ _ => key = k → NonePending k r ∨ x.2.Within (DeltaWritesMayFail k)
  | _ => True

end EditRun

def DataLayer.Announced (s : DataLayer) (k : DocKey) (c : Change) : Prop :=
  s.Told k c ∨ k.2 ∈ (get s.settle k.1).getD []

lemma recordWrites_calm : Calm RecordWritesMayFail where
  listed _ _ h := h
  uncut op f h := by
    cases op with
    | write id record => cases record <;> exact h
    | _ => exact h
  unapplied op h := by
    cases op with
    | write id record =>
      cases record with
      | doc => cases h
      | delta => cases h
      | _ => exact h
    | _ => exact h

lemma deltaWrites_calm (k) : Calm (DeltaWritesMayFail k) where
  listed backend f h := recordWrites_calm.listed backend f h.1
  uncut op f h := recordWrites_calm.uncut op f h.1
  unapplied op h := recordWrites_calm.unapplied op h.1

lemma deltaWrites_sure (k) : ¬DocWriteFails (DeltaWritesMayFail k) k := by
  rintro ⟨id, blob, f, hall⟩
  exact hall.2 id blob f rfl rfl

namespace EditRun
variable {host : DataHost} {k : DocKey}

def news (k : DocKey) (edits : Finset Change) : News := ⟨k, edits, ∅, ∅⟩

lemma quieten (h : (news k r.edits).Holds host.engine r.part)
    (hpending : NonePending k r) : Holds ⟨k, ∅, r.edits, ∅⟩ host.engine r.part := by
  cases he : get r.part.durable.docs k with
  | none => exact holds_absent he rfl (h.absent he).1 rfl
  | some entry =>
    have hfits := h.fits entry he
    have htold : ∀ c ∈ r.edits, r.part.durable.Told k c := fun c hc =>
      (hfits.marked c hc (hpending entry he c hc (hfits.edits hc))).resolve_right (by simp [news])
    have hopen : Awaits ⟨k, ∅, r.edits, ∅⟩ host.engine entry entry r.part :=
      ⟨⟨h.keeps.loaded, h.keeps.named, by simp, empty_subset _, htold⟩, he,
        ⟨hfits.closed, empty_subset _, hfits.edits, empty_subset _, by simp⟩⟩
    exact hopen.holds

lemma unquieten {edits}
    (h : Holds ⟨k, ∅, edits, ∅⟩ host.engine p) : (news k edits).Holds host.engine p where
  keeps := ⟨h.keeps.loaded, h.keeps.named, fun _ c hc _ => .inl (h.keeps.known c hc),
    empty_subset _, by simp [news]⟩
  absent hnone := ⟨(h.absent hnone).2.1, rfl, rfl⟩
  fits entry he := by
    have hfits := h.fits entry he
    exact ⟨hfits.closed, hfits.known, empty_subset _, empty_subset _,
      fun c hc _ => .inl (h.keeps.known c hc)⟩

lemma news_step (hactive : host.replicates k.1 = true)
    (h : (news k r.edits).Holds host.engine r.part)
    (henabled : (machine host k).enabled r x) (hann : Announces k r x) :
    (news k (step host k r x).edits).Holds host.engine (step host k r x).part := by
  obtain ⟨op, schedule⟩ := x
  obtain ⟨hwith, hfresh⟩ := henabled
  have hsur := (news k r.edits).surrounds recordWrites_calm host
  -- However an operation ends, what it keeps holds of the state it leaves.
  have hends {allowed : StorageOp → Fault → Prop} {n : News} {α : Type} {m : DataM α}
      (hn : n.Holds host.engine r.part) (hall : schedule.Within allowed)
      (hm : Upholds allowed (n.Holds host.engine) (fun _ => False) m) :
      n.Holds host.engine (m schedule r.part).2 := by
    have hr := hm schedule hall r.part hn
    split at hr
    all_goals simp_all
  have hplain (hnone : ∀ out, op.edited k out = ∅)
      (hp : (news k r.edits).Holds host.engine (op.perform host schedule r.part).2) :
      (news k (step host k r (op, schedule)).edits).Holds host.engine
        (step host k r (op, schedule)).part := by
    simp only [step, hnone, empty_union]
    exact hp
  cases op with
  | create key => exact hplain (fun _ => rfl) (hends h hwith (hsur.dataCreateDoc key))
  | readVersion key =>
    exact hplain (fun _ => rfl) (hends h hwith (.bind (hsur.readDoc _) fun _ =>
      .skip))
  | listDocs space =>
    exact hplain (fun _ => rfl) (hends h hwith (.bind (hsur.dataListDocs space) fun _ =>
      .skip))
  | offer space => exact hplain (fun _ => rfl) (hends h hwith (hsur.offerVersions space))
  | edit key growth change =>
    by_cases hkey : key = k
    · subst hkey
      have hunsn : Unseen key change r.part :=
        ⟨h.keeps.loaded, (hfresh growth change rfl).1, (hfresh growth change rfl).2⟩
      have hr := withDoc_tells recordWrites_calm (news key r.edits) host growth change schedule
        hwith r.part ⟨h, hunsn⟩
      simp only [step, SyncOp.perform]
      cases hout : withDoc host key growth change schedule r.part with
      | mk out p' =>
        simp only [news] at hr hout ⊢
        rw [hout] at hr
        cases out with
        | returned a =>
          simp only [SyncOp.edited, if_pos]
          exact hr
        | raised e =>
          simp only [SyncOp.edited, empty_union]
          exact hr
        | cut => exact hr.elim
    · refine hplain (fun out => ?_) (hends h hwith (hsur.withDoc hkey))
      cases out <;> simp [SyncOp.edited, hkey]
  | flush key =>
    refine hplain (fun _ => rfl) (hends h hwith ?_)
    by_cases hkey : key = k
    · subst hkey
      exact dataFlush_tells recordWrites_calm _ host hactive rfl
    · exact hsur.dataFlush hkey
  | receive key blob kind =>
    by_cases hkey : key = k
    · subst hkey
      rcases hann rfl with hpending | hsure
      · exact hplain (fun _ => rfl) (unquieten (hends (quieten h hpending) hwith
          ((surrounds recordWrites_calm _ host).applyContainedBlob_of fun record =>
            importContained_quiet recordWrites_calm _ host hactive rfl rfl)))
      exact hplain (fun _ => rfl) (hends h hsure (applyContainedBlob_tells
        (deltaWrites_calm key) _ host hactive rfl (deltaWrites_sure key) (fun _ _ _ _ h => h.1)))
    · exact hplain (fun _ => rfl) (hends h hwith (hsur.applyContainedBlob hkey))
  | setStorage backend =>
    exact hplain (fun _ => rfl) (unquieten (hends (quieten h hann) hwith
      (setDataStorage_quiet _ recordWrites_calm host rfl rfl)))

/-- Whatever some record of the document holds of the edits made here was pushed to
the peer, or the document was offered once the edit was stored, or an offer of it is
armed. -/
theorem stored_edits_announced (hactive : host.replicates k.1 = true) {s : DataLayer}
    (hs : s.docs = ∅) {xs : List (SyncOp × Schedule StorageOp)} {r : EditRun}
    (hruns : (machine host k).Runs ⟨⟨s, []⟩, ∅⟩ xs r)
    (hann : (machine host k).Along (Announces k) ⟨⟨s, []⟩, ∅⟩ xs) :
    ∀ id, ∀ c ∈ r.edits, c ∈ (r.part.durable.disk id).changes k → r.part.durable.Announced k c := by
  have hstart : (news k ∅).Holds host.engine ⟨s, []⟩ := by
    apply holds_absent _ rfl rfl rfl
    rw [hs]
    rfl
  have hend := hruns.invariant (I := fun r => (news k r.edits).Holds host.engine r.part)
    (fun r x hr henabled hx => news_step hactive hr henabled hx) hann hstart
  intro id c hc hin
  exact .inl ((hend.keeps.stored id c hc hin).resolve_right (by simp [news]))

def preFlushFails : Schedule StorageOp
  | .write _ (.delta _ _ _), n => if n = 8 then .failed false else .done
  | _, _ => .done

/-- An edit whose flush fails ahead of a blob that applies, so that one record holds
both. -/
def foldedRun : List (SyncOp × Schedule StorageOp) :=
  [(.create (0, 0), fun _ _ => .done), (.edit (0, 0) true 1, fun _ _ => .done),
    (.receive (0, 0) (some ⟨{7}, false, ∅⟩) .delta, preFlushFails)]

lemma always_within (h : ∀ op, allowed op .done) :
    Schedule.Within (fun _ _ => .done) allowed := fun op _ => h op

lemma recordWrites_done (op) : RecordWritesMayFail op .done := by
  cases op with
  | write id record => cases record <;> trivial
  | _ => trivial

lemma preFlushFails_within (k) : preFlushFails.Within (DeltaWritesMayFail k) := by
  intro op n
  refine ⟨?_, fun id blob f hop => ?_⟩
  · cases op with
    | write id record =>
      cases record with
      | delta key seq blob =>
        by_cases hn : n = 8
        · simp [preFlushFails, hn, RecordWritesMayFail]
        · simp [preFlushFails, hn, RecordWritesMayFail]
      | _ => trivial
    | _ => trivial
  · subst hop
    simp [preFlushFails]

@[irreducible] def foldedEnd : EditRun :=
  (machine plainHost (0, 0)).replay ⟨⟨freshLayer, []⟩, ∅⟩ foldedRun

theorem folded_edit_announced :
    1 ∈ foldedEnd.edits ∧ 1 ∈ (foldedEnd.part.durable.disk 0).changes (0, 0) ∧
      foldedEnd.part.durable.Announced (0, 0) 1 := by
  have hdone := always_within recordWrites_done
  have hfails := preFlushFails_within (0, 0)
  have hfresh : ∀ growth change, SyncOp.edit (0, 0) true 1 = .edit (0, 0) growth change →
      Fresh (0, 0) (step plainHost (0, 0) ⟨⟨freshLayer, []⟩, ∅⟩
        (.create (0, 0), fun _ _ => .done)) change := by
    rintro growth change ⟨-⟩
    refine ⟨fun id => ?_, fun entry he => ?_⟩
    · cases id with
      | zero => decide +kernel
      | succ id =>
        have hempty : (step plainHost (0, 0) ⟨⟨freshLayer, []⟩, ∅⟩
          (.create (0, 0), fun _ _ => .done)).part.durable.disk (id + 1) = .empty := rfl
        rw [hempty]
        decide +kernel
    · have hall : ((get (step plainHost (0, 0) ⟨⟨freshLayer, []⟩, ∅⟩
          (.create (0, 0), fun _ _ => .done)).part.durable.docs (0, 0)).all fun entry =>
          1 ∉ entry.doc.exported) = true := by decide +kernel
      rw [he] at hall
      simpa using hall
  have hin : 1 ∈ foldedEnd.edits := by decide +kernel
  have hstore : 1 ∈ (foldedEnd.part.durable.disk 0).changes (0, 0) := by decide +kernel
  have henabled : (machine plainHost (0, 0)).Along (machine plainHost (0, 0)).enabled
      ⟨⟨freshLayer, []⟩, ∅⟩ foldedRun := by
    refine ⟨⟨hdone, ?_⟩, ⟨hdone, hfresh⟩, ⟨fun op n => (hfails op n).1, ?_⟩, True.intro⟩
    · intro growth change h
      cases h
    intro growth change h
    cases h
  have hann : (machine plainHost (0, 0)).Along (Announces (0, 0)) ⟨⟨freshLayer, []⟩, ∅⟩ foldedRun :=
    ⟨True.intro, True.intro, fun _ => .inr hfails, True.intro⟩
  have hruns : (machine plainHost (0, 0)).Runs ⟨⟨freshLayer, []⟩, ∅⟩ foldedRun foldedEnd := by
    refine ⟨?_, henabled⟩
    rw [foldedEnd]
  have hactive : plainHost.replicates 0 = true := rfl
  have hshut : freshLayer.docs = ∅ := rfl
  exact ⟨hin, hstore, stored_edits_announced hactive hshut hruns hann 0 1 hin hstore⟩

@[irreducible] def movedEnd : EditRun :=
  (machine plainHost (0, 0)).replay ⟨⟨freshLayer, []⟩, ∅⟩
    [(.create (0, 0), fun _ _ => .done), (.edit (0, 0) true 1, fun _ _ => .done),
      (.setStorage 1, fun _ _ => .done)]

/-- The move stores the edit and tells no one. -/
theorem moved_edit_unannounced :
    1 ∈ movedEnd.edits ∧ 1 ∈ (movedEnd.part.durable.disk 1).changes (0, 0) ∧
      ¬movedEnd.part.durable.Announced (0, 0) 1 := by
  have hsent : movedEnd.part.durable.sent.length = 0 := by decide +kernel
  have hsettled : 0 ∉ (get movedEnd.part.durable.settle 0).getD [] := by decide +kernel
  refine ⟨by decide +kernel, by decide +kernel, ?_⟩
  rintro (⟨frame, hin, -⟩ | harmed)
  · rw [List.length_eq_zero_iff.1 hsent] at hin
    cases hin
  · exact hsettled harmed

end EditRun

end OfflineProtocol
