import OfflineProtocol.DataAround
import OfflineProtocol.EventTrace

/-! Durable changes of a document survive failed writes and crashes. -/
namespace OfflineProtocol
open KeyedTable FaultySchedule CausalPool DataBackend Finset DataLayer StateRecord
open Interruption (Fault Part Outcome)

/-- What the calls so far left on a backend, and the changes that a failed write of
the document did not store and no later one did. -/
structure Ledger where
  held : DataBackend
  owed : Finset Change

namespace Ledger
variable (k : DocKey) (id : ℕ)

def owedAfter (l : Ledger) : StorageOp → Fault → Finset Change
  | _, .cut _ => ∅
  | .write backend record, .failed _ =>
    if backend = id ∧ record.isOf k then l.owed ∪ (record.changes \ l.held.changes k) else l.owed
  | .write backend record, .done => if backend = id ∧ record.isOf k then ∅ else l.owed
  | _, _ => l.owed

def enter (l : Ledger) (e : StorageOp × Fault) : Ledger :=
  ⟨if e.2.applied then l.held.apply id e.1 else l.held, l.owedAfter k id e.1 e.2⟩

def run (b : DataBackend) (log : List (StorageOp × Fault)) : Ledger :=
  log.foldl (enter k id) ⟨b, ∅⟩

variable {k id}

lemma run_concat (b log e) : run k id b (log ++ [e]) = (run k id b log).enter k id e := by
  rw [run, List.foldl_append]
  rfl

lemma owedAfter_cut {l : Ledger} {op f} : l.owedAfter k id op (.cut f) = ∅ := by
  cases op <;> rfl

lemma owedAfter_elsewhere (l : Ledger) (hop : op.touches k = false)
    (hfault : ∀ f, fault ≠ .cut f) : l.owedAfter k id op fault = l.owed := by
  cases fault with
  | cut f => exact absurd rfl (hfault f)
  | done =>
    cases op with
    | write backend record =>
      have hof : record.isOf k = false := hop
      simp [owedAfter, hof]
    | _ => rfl
  | failed f =>
    cases op with
    | write backend record =>
      have hof : record.isOf k = false := hop
      simp [owedAfter, hof]
    | _ => rfl

end Ledger

variable {k : DocKey} {b : DataBackend}

def DebtsPaid (k : DocKey) (id : ℕ) (b : DataBackend) (log : List (StorageOp × Fault)) : Prop :=
  ∀ before record after, log = before ++ (.write id record, .done) :: after → record.isOf k = true →
    (Ledger.run k id b before).owed ⊆ record.changes

lemma debtsPaid_nil {id} : DebtsPaid k id b [] := by
  intro before record after h
  simp at h

lemma DebtsPaid.concat {id} (h : DebtsPaid k id b log)
    (he : ∀ record, e = (.write id record, .done) → record.isOf k = true →
      (Ledger.run k id b log).owed ⊆ record.changes) : DebtsPaid k id b (log ++ [e]) := by
  intro before record after hlog hof
  rcases EventTrace.concat_eq_split hlog with ⟨rfl, hrec, -⟩ | ⟨l, -, hl⟩
  · exact he record hrec.symm hof
  · exact h before record l hl hof

/-- An open document and its records: nothing exported is unsaved, a complete one
holds every record, and no record it would overwrite holds more than the snapshot. -/
structure Kept (eng : Engine) (b : DataBackend) (k : DocKey) (entry : LoadedDoc) : Prop where
  closed : Closed eng.causality entry.doc.applied
  exported : entry.doc.exported ⊆ entry.doc.applied
  previous : ∀ v, entry.doc.previousExported = some v → v ⊆ entry.doc.exported
  saved : entry.doc.exported ⊆ b.changes k
  complete : entry.historyComplete = true → b.changes k ⊆ entry.doc.applied
  fresh : ∀ seq, entry.nextSeq ≤ seq → b.deltaChanges k seq ⊆ b.compactedChanges k

lemma LoadedFrom.kept (h : LoadedFrom eng b k entry) : Kept eng b k entry where
  closed := h.applied ▸ ready_closed
  exported := h.exported ▸ subset_rfl
  previous v hv := by rw [h.previous] at hv; cases hv
  saved := by
    rw [h.exported, h.applied]
    exact ready_subset
  complete := h.complete
  fresh seq hseq := by
    have hnot : (k, seq) ∉ b.deltaLog := fun hmem => absurd (h.next seq hmem) (by omega)
    rw [deltaChanges_eq_empty hnot]
    exact empty_subset _

lemma Kept.congr (h : Kept eng b k entry) (hdoc : get b'.docs k = get b.docs k)
    (hlog : ∀ seq, get b'.deltaLog (k, seq) = get b.deltaLog (k, seq)) : Kept eng b' k entry where
  closed := h.closed
  exported := h.exported
  previous := h.previous
  saved := by
    rw [changes_congr hdoc hlog]
    exact h.saved
  complete hc := by
    rw [changes_congr hdoc hlog]
    exact h.complete hc
  fresh seq hseq := by
    have hsame := h.fresh seq hseq
    simpa only [deltaChanges, compactedChanges, hdoc, hlog] using hsame

structure SameCopy (x y : LoadedDoc) : Prop where
  applied : y.doc.applied = x.doc.applied
  exported : y.doc.exported = x.doc.exported
  previous : y.doc.previousExported = x.doc.previousExported
  complete : y.historyComplete = x.historyComplete
  next : y.nextSeq = x.nextSeq

namespace Kept
variable {eng : Engine} {b : DataBackend} {k : DocKey} {x : LoadedDoc}

lemma same (h : Kept eng b k e) (hx : SameCopy e x) : Kept eng b k x where
  closed := hx.applied ▸ h.closed
  exported := by
    rw [hx.applied, hx.exported]
    exact h.exported
  previous v hv := by
    rw [hx.previous] at hv
    rw [hx.exported]
    exact h.previous v hv
  saved := by
    rw [hx.exported]
    exact h.saved
  complete hc := by
    rw [hx.complete] at hc
    rw [hx.applied]
    exact h.complete hc
  fresh seq hseq := by
    rw [hx.next] at hseq
    exact h.fresh seq hseq

lemma delta (h : Kept eng b k e)
    (hblob : blob.changes = e.doc.applied \ e.doc.exported) (hap : x.doc.applied = e.doc.applied)
    (hex : x.doc.exported = e.doc.applied)
    (hprev : ∀ v, x.doc.previousExported = some v → v ⊆ x.doc.exported)
    (hhc : x.historyComplete = e.historyComplete) (hseq : x.nextSeq = e.nextSeq + 1) :
    Kept eng (b.put (.delta k e.nextSeq blob)) k x := by
  have hchanged : (b.put (.delta k e.nextSeq blob)).changes k = b.changes k ∪ blob.changes :=
    put_delta_changes (h.fresh e.nextSeq le_rfl)
  refine ⟨hap ▸ h.closed, ?_, hprev, ?_, fun hc => ?_, fun seq hle => ?_⟩
  · rw [hex, hap]
  · rw [hex, hchanged, hblob]
    intro c hc
    by_cases hsaved : c ∈ e.doc.exported
    · exact mem_union_left _ (h.saved hsaved)
    · exact mem_union_right _ (mem_sdiff.2 ⟨hc, hsaved⟩)
  · rw [hchanged, hap, hblob]
    exact union_subset (h.complete (hhc ▸ hc)) sdiff_subset
  · have hne : (k, seq) ≠ (k, e.nextSeq) := by
      intro heq
      have : seq = e.nextSeq := congrArg Prod.snd heq
      omega
    have hold := h.fresh seq (by omega)
    simpa only [deltaChanges, compactedChanges, put, get_insert_ne hne] using hold

lemma compacted (h : Kept eng b k e) (hc : e.historyComplete = true)
    (hblob : blob.changes = e.doc.applied) (hap : x.doc.applied = e.doc.applied)
    (hex : x.doc.exported ⊆ x.doc.applied)
    (hprev : ∀ v, x.doc.previousExported = some v → v ⊆ x.doc.exported) :
    Kept eng (b.put (.doc k blob)) k x := by
  have hchanged : (b.put (.doc k blob)).changes k = blob.changes := by
    apply put_doc_changes
    rw [hblob]
    exact h.complete hc
  refine ⟨hap ▸ h.closed, hex, hprev, ?_, fun _ => ?_, fun seq _ => ?_⟩
  · rw [hchanged, hblob, ← hap]
    exact hex
  · rw [hchanged, hblob, hap]
  rw [put_doc_compacted, ← hchanged]
  exact delta_subset

lemma dropped (h : Kept eng b k x) (hfold : b.changes k = b.compactedChanges k) (n) :
    Kept eng (b.remove (.delta k n)) k x := by
  have hchanged : (b.remove (.delta k n)).changes k = b.changes k :=
    remove_delta_changes hfold
  refine ⟨h.closed, h.exported, h.previous, ?_, fun hc => ?_, fun seq _ => ?_⟩
  · rw [hchanged]
    exact h.saved
  · rw [hchanged]
    exact h.complete hc
  have hsub : (b.remove (.delta k n)).deltaChanges k seq ⊆ (b.remove (.delta k n)).changes k :=
    delta_subset
  rw [hchanged, hfold] at hsub
  exact hsub

end Kept

structure Watch where
  k : DocKey
  id : ℕ
  origin : DataBackend
  start : ℕ
  floor : Finset Change

namespace Watch
variable (w : Watch)

def ledger (p : Part DataLayer StorageOp) : Ledger :=
  Ledger.run w.k w.id w.origin (p.log.drop w.start)

structure Stores (p : Part DataLayer StorageOp) : Prop where
  backend : p.durable.backend = w.id
  started : w.start ≤ p.log.length
  held : (w.ledger p).held = p.durable.disk w.id
  settled : DebtsPaid w.k w.id w.origin (p.log.drop w.start)
  stored : w.floor ⊆ (p.durable.disk w.id).changes w.k
  guarded : Unremoved (p.durable.disk w.id).docMeta w.k

structure Covers (eng : Engine) (p : Part DataLayer StorageOp) (entry : LoadedDoc) : Prop where
  kept : Kept eng (p.durable.disk w.id) w.k entry
  owes : (w.ledger p).owed ⊆ entry.doc.applied \ entry.doc.exported
  floor : w.floor ⊆ entry.doc.applied

structure Holds (eng : Engine) (p : Part DataLayer StorageOp) : Prop where
  stores : w.Stores p
  loaded : w.k ∈ p.durable.docs → w.k.1 ∈ p.durable.spaces
  closed : get p.durable.docs w.k = none → (w.ledger p).owed = ∅
  covers : ∀ entry, get p.durable.docs w.k = some entry → w.Covers eng p entry

structure Survives (p : Part DataLayer StorageOp) : Prop where
  stores : w.Stores p
  settled : (w.ledger p).owed = ∅

variable {w} {eng : Engine} {p : Part DataLayer StorageOp}
variable {op : StorageOp} {entry : LoadedDoc} {changes : Finset Change}

lemma ledger_after (hstart : w.start ≤ p.log.length) (op fault) :
    w.ledger (p.after effect op fault) = (w.ledger p).enter w.k w.id (op, fault) := by
  unfold ledger
  have hdrop : (p.after .effect op fault).log.drop w.start =
      p.log.drop w.start ++ [(op, fault)] := List.drop_append_of_le_length hstart
  rw [hdrop, Ledger.run_concat]

/-- What one call has to respect for storage to keep what it holds. -/
lemma Stores.after (h : w.Stores p)
    (hstore : fault.applied = true → w.floor ⊆ ((p.durable.disk w.id).apply w.id op).changes w.k)
    (hguard : fault.applied = true → Unremoved ((p.durable.disk w.id).apply w.id op).docMeta w.k)
    (hpaid : ∀ record, (op, fault) = (.write w.id record, .done) → record.isOf w.k = true →
      (w.ledger p).owed ⊆ record.changes) :
    w.Stores (p.after effect op fault) where
  backend := after_backend.trans h.backend
  started := h.started.trans (by simp [Part.after])
  held := by
    rw [ledger_after h.started, after_disk]
    show (if fault.applied then (w.ledger p).held.apply w.id op else (w.ledger p).held) = _
    rw [h.held]
  settled := by
    have hdrop : (p.after .effect op fault).log.drop w.start =
        p.log.drop w.start ++ [(op, fault)] := List.drop_append_of_le_length h.started
    rw [hdrop]
    exact h.settled.concat hpaid
  stored := by
    rw [after_disk]
    split
    · exact hstore ‹_›
    · exact h.stored
  guarded := by
    rw [after_disk]
    split
    · exact hguard ‹_›
    · exact h.guarded

lemma Stores.unwritten (h : w.Stores p) {op} (hdone : fault ≠ .done)
    (hf : fault.applied = false) : w.Stores (p.after effect op fault) := by
  refine h.after (fun ht => ?_) (fun ht => ?_) fun _ hr _ => absurd (Prod.mk.inj hr).2 hdone
  · rw [hf] at ht
    cases ht
  rw [hf] at ht
  cases ht

lemma Stores.spared (h : w.Stores p) (hop : op.spares w.k = true)
    {fault} : w.Stores (p.after effect op fault) := by
  have htouch := StorageOp.touches_of_spares hop
  refine h.after (fun _ => ?_) (fun _ => h.guarded.apply hop) fun record hrec hof => ?_
  · rw [apply_changes htouch]
    exact h.stored
  have : op = .write w.id record := (Prod.mk.inj hrec).1
  rw [this] at htouch
  exact absurd (hof.symm.trans htouch) (by simp)

lemma owed_after_spared (hstart : w.start ≤ p.log.length)
    (hop : op.spares w.k = true) (hfault : ∀ f, fault ≠ .cut f) :
    (w.ledger (p.after effect op fault)).owed = (w.ledger p).owed := by
  rw [ledger_after hstart]
  exact Ledger.owedAfter_elsewhere _ (StorageOp.touches_of_spares hop) hfault

/-- A cut settles what was owed: memory is gone. -/
lemma owed_after_cut (hstart : w.start ≤ p.log.length) {op f} :
    (w.ledger (p.after effect op (.cut f))).owed = ∅ := by
  rw [ledger_after hstart]
  show (w.ledger p).owedAfter w.k w.id op (.cut f) = ∅
  exact Ledger.owedAfter_cut

lemma Covers.spared (h : w.Covers eng p entry)
    (hstart : w.start ≤ p.log.length) (hop : op.spares w.k = true)
    (hfault : ∀ f, fault ≠ .cut f) : w.Covers eng (p.after effect op fault) entry where
  kept := by
    have htouch := StorageOp.touches_of_spares hop
    rw [after_disk]
    split
    · exact h.kept.congr (apply_elsewhere htouch).1 (apply_elsewhere htouch).2
    · exact h.kept
  owes := by
    rw [owed_after_spared hstart hop hfault]
    exact h.owes
  floor := h.floor

lemma Holds.spared (h : w.Holds eng p) (hop : op.spares w.k = true)
    (hfault : ∀ f, fault ≠ .cut f) :
    w.Holds eng (p.after effect op fault) where
  stores := h.stores.spared hop
  loaded := by
    rw [after_docs, after_spaces]
    exact h.loaded
  closed := by
    rw [after_docs, owed_after_spared h.stores.started hop hfault]
    exact h.closed
  covers := by
    rw [after_docs]
    exact fun entry he => (h.covers entry he).spared h.stores.started hop hfault

lemma Holds.memory (h : w.Holds eng p) (hs : KeepsDoc w.k p.durable s) :
    w.Holds eng ⟨s, p.log⟩ where
  stores :=
    { backend := hs.backend.trans h.stores.backend
      started := h.stores.started
      held := h.stores.held.trans (congrFun hs.disk w.id).symm
      settled := h.stores.settled
      stored := by
        rw [hs.disk]
        exact h.stores.stored
      guarded := by
        rw [hs.disk]
        exact h.stores.guarded }
  loaded hk := by
    have hk' : w.k ∈ p.durable.docs := by
      rw [← get_isSome_iff, ← hs.doc, get_isSome_iff]
      exact hk
    exact hs.spaces _ (h.loaded hk')
  closed hnone := h.closed (hs.doc.symm.trans hnone)
  covers entry he := by
    have hcovered := h.covers entry (hs.doc.symm.trans he)
    refine ⟨?_, hcovered.owes, hcovered.floor⟩
    rw [hs.disk]
    exact hcovered.kept

lemma surrounds (w : Watch) (host : DataHost)
    (hlisted : ∀ backend f, ¬allowed (.list backend .deltaLog) (.failed f))
    (hfloor : Closed host.engine.causality w.floor) :
    Surrounds allowed host w.k (w.Holds host.engine) w.Survives where
  loaded p hp := hp.loaded
  call p op fault hop _ hp := by
    cases fault with
    | done => exact hp.spared hop (by simp)
    | failed f => exact hp.spared hop (by simp)
    | cut f => exact ⟨hp.stores.spared hop, owed_after_cut hp.stores.started⟩
  memory p s hs hp := hp.memory hs
  purge p key fault _ _ _ hgone hp := by
    refine absurd ?_ hgone
    rw [stored, hp.stores.backend]
    exact hp.stores.guarded
  listed := hlisted
  opens p entry hp hnone hspace hload := by
    have howed : (w.ledger p).owed = ∅ := hp.closed hnone
    rw [stored, hp.stores.backend] at hload
    refine ⟨⟨hp.stores.backend, hp.stores.started, hp.stores.held, hp.stores.settled,
      hp.stores.stored, hp.stores.guarded⟩, fun _ => ?_, fun hn => ?_, fun entry' he => ?_⟩
    · exact mem_modify.2 hspace
    · exact howed
    have heq : entry = entry' := by
      have he' : get (p.durable.docs.insert w.k entry) w.k = some entry' := he
      rw [get_insert_self] at he'
      exact Option.some.inj he'
    subst heq
    refine ⟨hload.kept, ?_, ?_⟩
    · show (w.ledger p).owed ⊆ _
      rw [howed]
      exact empty_subset _
    rw [hload.applied]
    exact hfloor.subset_ready hp.stores.stored

def raise (w : Watch) (changes : Finset Change) : Watch := { w with floor := w.floor ∪ changes }

lemma Stores.raise (h : w.Stores p)
    (hc : changes ⊆ (p.durable.disk w.id).changes w.k) : (w.raise changes).Stores p :=
  ⟨h.backend, h.started, h.held, h.settled, union_subset h.stored hc, h.guarded⟩

lemma Stores.lower (h : (w.raise changes).Stores p) : w.Stores p :=
  ⟨h.backend, h.started, h.held, h.settled, subset_union_left.trans h.stored, h.guarded⟩

lemma Survives.lower (h : (w.raise changes).Survives p) :
    w.Survives p := ⟨h.stores.lower, h.settled⟩

lemma Holds.raise (h : w.Holds eng p) (hc : changes ⊆ (p.durable.disk w.id).changes w.k)
    (hopen : ∀ entry, get p.durable.docs w.k = some entry → changes ⊆ entry.doc.applied) :
    (w.raise changes).Holds eng p :=
  ⟨h.stores.raise hc, h.loaded, h.closed, fun e he => ⟨(h.covers e he).kept, (h.covers e he).owes,
    union_subset (h.covers e he).floor (hopen e he)⟩⟩

lemma Holds.lower (h : (w.raise changes).Holds eng p) : w.Holds eng p :=
  ⟨h.stores.lower, h.loaded, h.closed, fun e he => ⟨(h.covers e he).kept, (h.covers e he).owes,
    subset_union_left.trans (h.covers e he).floor⟩⟩

structure Awaits (w : Watch) (eng : Engine) (entry copy : LoadedDoc)
    (p : Part DataLayer StorageOp) : Prop where
  stores : w.Stores p
  space : w.k.1 ∈ p.durable.spaces
  copy : get p.durable.docs w.k = some copy
  covers : w.Covers eng p entry

lemma Holds.awaits (h : w.Holds eng p)
    (he : get p.durable.docs w.k = some entry) : w.Awaits eng entry entry p :=
  ⟨h.stores, h.loaded (mem_of_get he), he, h.covers entry he⟩

lemma Awaits.holds (h : w.Awaits eng entry entry p) : w.Holds eng p where
  stores := h.stores
  loaded _ := h.space
  closed hnone := by rw [h.copy] at hnone; cases hnone
  covers entry' he := by
    have heq := h.copy.symm.trans he
    cases heq
    exact h.covers

lemma Awaits.replace {entry copy copy'} (h : w.Awaits eng entry copy p) :
    w.Awaits eng entry copy' ⟨p.durable.setDoc w.k copy', p.log⟩ :=
  ⟨⟨h.stores.backend, h.stores.started, h.stores.held, h.stores.settled, h.stores.stored,
    h.stores.guarded⟩, h.space, get_insert_self, ⟨h.covers.kept, h.covers.owes,
    h.covers.floor⟩⟩

lemma Awaits.same {entry entry' copy} (h : w.Awaits eng entry copy p)
    (hs : SameCopy entry entry') : w.Awaits eng entry' copy p :=
  ⟨h.stores, h.space, h.copy, ⟨h.covers.kept.same hs, by
    rw [hs.applied, hs.exported]
    exact h.covers.owes, hs.applied ▸ h.covers.floor⟩⟩

lemma docMeta_put {k} (h : record.isOf k = true) : (b.put record).docMeta = b.docMeta := by
  cases record with
  | docMeta key removal => simp [isOf] at h
  | _ => rfl

lemma Stores.written (h : w.Stores p) (hof : record.isOf w.k = true) (hf : fault.applied = true)
    (hsub : w.floor ∪ changes ⊆ ((p.durable.disk w.id).put record).changes w.k)
    (howed : (w.ledger p).owed ⊆ record.changes) :
    (w.raise changes).Stores (p.after effect (.write w.id record) fault) := by
  have hstored : w.Stores (p.after .effect (.write w.id record) fault) := by
    refine h.after (fun _ => ?_) (fun _ => ?_) fun record' hrec _ => ?_
    · rw [apply, if_pos rfl]
      exact subset_union_left.trans hsub
    · rw [apply, if_pos rfl, docMeta_put hof]
      exact h.guarded
    have : record = record' := by
      injection (Prod.mk.inj hrec).1
    rw [← this]
    exact howed
  apply hstored.raise
  rw [after_write w.id record fault hf]
  exact subset_union_right.trans hsub

lemma owed_written (h : w.Stores p) (record) (hof : record.isOf w.k = true) :
    (w.ledger (p.after effect (.write w.id record) .done)).owed = ∅ := by
  rw [ledger_after h.started]
  simp [Ledger.enter, Ledger.owedAfter, hof]

/-- A record of the document that could not be written leaves its changes owed. -/
lemma Awaits.failed {entry copy} (h : w.Awaits eng entry copy p)
    (hof : record.isOf w.k = true) (hchanged : record.changes ⊆ entry.doc.applied) :
    w.Awaits eng entry copy (p.after effect (.write w.id record) (.failed false)) := by
  have hdisk : (p.after .effect (.write w.id record) (.failed false)).durable.disk w.id =
      p.durable.disk w.id := by rw [after_disk]; rfl
  refine ⟨h.stores.unwritten (by simp) rfl, ?_, ?_, ⟨?_, ?_, h.covers.floor⟩⟩
  · rw [after_spaces]
    exact h.space
  · rw [after_docs]
    exact h.copy
  · rw [hdisk]
    exact h.covers.kept
  have howed : (w.ledger (p.after .effect (.write w.id record) (.failed false))).owed =
      (w.ledger p).owed ∪ (record.changes \ (w.ledger p).held.changes w.k) := by
    rw [ledger_after h.stores.started]
    simp [Ledger.enter, Ledger.owedAfter, hof]
  rw [howed]
  apply union_subset h.covers.owes
  -- What is not stored was not exported.
  intro c hc
  obtain ⟨hin, hnot⟩ := mem_sdiff.1 hc
  rw [h.stores.held] at hnot
  exact mem_sdiff.2 ⟨hchanged hin, fun he => hnot (h.covers.kept.saved he)⟩

/-- A schedule in which every listing of the delta log succeeds and a failed call has
no effect. -/
structure Fails (allowed : StorageOp → Fault → Prop) : Prop where
  listed : ∀ backend f, ¬allowed (.list backend .deltaLog) (.failed f)
  unapplied : ∀ op, ¬allowed op (.failed true)

/-- The document is in memory as `copy`, and its compacted record holds all that is
stored. -/
def Folded (w : Watch) (eng : Engine) (copy : LoadedDoc) (p : Part DataLayer StorageOp) : Prop :=
  w.Awaits eng copy copy p ∧
    (p.durable.disk w.id).changes w.k = (p.durable.disk w.id).compactedChanges w.k

section
variable {entry copy : LoadedDoc} (h : w.Awaits eng entry copy p)
  (hcomp : entry.historyComplete = true) (hap : copy.doc.applied = entry.doc.applied)
include h hcomp hap

lemma Awaits.put_compacted :
    ((p.durable.disk w.id).put (.doc w.k copy.doc.exportCompacted)).changes w.k =
      entry.doc.applied := by
  rw [← hap]
  apply put_doc_changes
  show _ ⊆ copy.doc.applied
  rw [hap]
  exact h.covers.kept.complete hcomp

lemma Awaits.stores_compacted (hf : fault.applied = true) : (w.raise entry.doc.applied).Stores
      (p.after effect (.write w.id (.doc w.k copy.doc.exportCompacted)) fault) := by
  apply h.stores.written (by simp [isOf]) hf
  · rw [h.put_compacted hcomp hap]
    exact union_subset (h.stores.stored.trans (h.covers.kept.complete hcomp)) subset_rfl
  show _ ⊆ copy.doc.applied
  rw [hap]
  exact h.covers.owes.trans sdiff_subset

lemma Awaits.compacted (hex : copy.doc.exported ⊆ copy.doc.applied)
    (hprev : ∀ v, copy.doc.previousExported = some v → v ⊆ copy.doc.exported) :
    (w.raise entry.doc.applied).Folded eng copy
      (p.after effect (.write w.id (.doc w.k copy.doc.exportCompacted)) .done) := by
  have hdisk := after_write (p := p) w.id (.doc w.k copy.doc.exportCompacted) .done rfl
  refine ⟨⟨h.stores_compacted hcomp hap rfl, ?_, ?_, ⟨?_, ?_, ?_⟩⟩, ?_⟩
  · rw [after_spaces]
    exact h.space
  · rw [after_docs]
    exact h.copy
  · show Kept eng (_ : DataBackend) w.k copy
    rw [show (w.raise entry.doc.applied).id = w.id from rfl, hdisk]
    exact h.covers.kept.compacted hcomp hap hap hex hprev
  · have howed := owed_written h.stores (.doc w.k copy.doc.exportCompacted) (by simp [isOf])
    show (w.ledger _).owed ⊆ _
    rw [howed]
    exact empty_subset _
  · rw [hap]
    exact union_subset h.covers.floor subset_rfl
  · show ((p.after _ _ _).durable.disk w.id).changes w.k =
      ((p.after _ _ _).durable.disk w.id).compactedChanges w.k
    rw [hdisk, h.put_compacted hcomp hap, put_doc_compacted]
    exact hap.symm

lemma Awaits.cut_compacting (f) :
    w.Survives (p.after effect (.write w.id (.doc w.k copy.doc.exportCompacted)) (.cut f)) := by
  refine ⟨?_, owed_after_cut h.stores.started⟩
  cases f with
  | true => exact (h.stores_compacted hcomp hap rfl).lower
  | false => exact h.stores.unwritten (by simp) rfl

end

section
variable {entry copy x : LoadedDoc} {delta : Blob} (h : w.Awaits eng entry copy p)
  (hdelta : delta.changes = entry.doc.applied \ entry.doc.exported)
include h hdelta

lemma Awaits.stores_delta (hf : fault.applied = true) : (w.raise entry.doc.applied).Stores
      (p.after effect (.write w.id (.delta w.k entry.nextSeq delta)) fault) := by
  have hput : ((p.durable.disk w.id).put (.delta w.k entry.nextSeq delta)).changes w.k =
      (p.durable.disk w.id).changes w.k ∪ delta.changes :=
    put_delta_changes (h.covers.kept.fresh _ le_rfl)
  apply h.stores.written (by simp [isOf]) hf
  · rw [hput]
    apply union_subset (h.stores.stored.trans subset_union_left)
    -- What the delta leaves out was exported, so it is stored.
    intro c hc
    by_cases hsaved : c ∈ entry.doc.exported
    · exact mem_union_left _ (h.covers.kept.saved hsaved)
    rw [hdelta]
    exact mem_union_right _ (mem_sdiff.2 ⟨hc, hsaved⟩)
  · show _ ⊆ delta.changes
    rw [hdelta]
    exact h.covers.owes

lemma Awaits.logged (hap : x.doc.applied = entry.doc.applied)
    (hex : x.doc.exported = entry.doc.applied)
    (hprev : ∀ v, x.doc.previousExported = some v → v ⊆ x.doc.exported)
    (hhc : x.historyComplete = entry.historyComplete) (hseq : x.nextSeq = entry.nextSeq + 1) :
    (w.raise entry.doc.applied).Awaits eng x copy
      (p.after effect (.write w.id (.delta w.k entry.nextSeq delta)) .done) := by
  refine ⟨h.stores_delta hdelta rfl, ?_, ?_, ⟨?_, ?_, ?_⟩⟩
  · rw [after_spaces]
    exact h.space
  · rw [after_docs]
    exact h.copy
  · show Kept eng ((p.after _ _ _).durable.disk w.id) w.k x
    rw [after_write w.id _ _ rfl]
    exact h.covers.kept.delta hdelta hap hex hprev hhc hseq
  · have howed := owed_written h.stores (.delta w.k entry.nextSeq delta) (by simp [isOf])
    show (w.ledger _).owed ⊆ _
    rw [howed]
    exact empty_subset _
  · rw [hap]
    exact union_subset h.covers.floor subset_rfl

lemma Awaits.cut_delta (f) :
    w.Survives (p.after effect (.write w.id (.delta w.k entry.nextSeq delta)) (.cut f)) := by
  refine ⟨?_, owed_after_cut h.stores.started⟩
  cases f with
  | true => exact (h.stores_delta hdelta rfl).lower
  | false => exact h.stores.unwritten (by simp) rfl

end

lemma Holds.modified (h : w.Holds eng p)
    (hf : ∀ entry, SameCopy entry (f entry)) : w.Holds eng ⟨p.durable.modifyDoc w.k f, p.log⟩ := by
  cases he : get p.durable.docs w.k with
  | none =>
    apply h.memory
    refine ⟨rfl, rfl, ?_, fun _ hs => hs, fun _ hn => hn, fun _ hf => hf⟩
    exact (get_modifyDoc f).trans (by rw [he]; rfl)
  | some entry =>
    have hopen := (h.awaits he).same (hf entry)
    have hnext : w.Awaits eng (f entry) (f entry) ⟨p.durable.modifyDoc w.k f, p.log⟩ := by
      refine ⟨⟨h.stores.backend, h.stores.started, h.stores.held, h.stores.settled,
        h.stores.stored, h.stores.guarded⟩, hopen.space, ?_, ⟨hopen.covers.kept, hopen.covers.owes,
        hopen.covers.floor⟩⟩
      exact (get_modifyDoc f).trans (by rw [he]; rfl)
    exact hnext.holds

structure Grown (eng : Engine) (x y : LoadedDoc) : Prop where
  applied : x.doc.applied ⊆ y.doc.applied
  closed : Closed eng.causality y.doc.applied
  exported : y.doc.exported = x.doc.exported
  previous : y.doc.previousExported = x.doc.previousExported
  complete : y.historyComplete = true → x.historyComplete = true
  next : y.nextSeq = x.nextSeq

lemma Awaits.grown {entry copy} (h : w.Awaits eng entry entry p)
    (hg : Grown eng entry copy) : w.Awaits eng copy copy ⟨p.durable.setDoc w.k copy, p.log⟩ := by
  have hkept := h.covers.kept
  refine ⟨h.replace.stores, h.space, get_insert_self, ⟨⟨hg.closed, ?_, ?_, ?_, ?_, ?_⟩, ?_, ?_⟩⟩
  · rw [hg.exported]
    exact hkept.exported.trans hg.applied
  · intro v hv
    rw [hg.previous] at hv
    rw [hg.exported]
    exact hkept.previous v hv
  · rw [hg.exported]
    exact hkept.saved
  · exact fun hc => (hkept.complete (hg.complete hc)).trans hg.applied
  · intro seq hseq
    rw [hg.next] at hseq
    exact hkept.fresh seq hseq
  · rw [hg.exported]
    exact h.covers.owes.trans (sdiff_subset_sdiff hg.applied subset_rfl)
  · exact h.covers.floor.trans hg.applied

lemma Awaits.rewound {entry copy} (h : w.Awaits eng entry copy p)
    (hap : copy.doc.applied = entry.doc.applied)
    (hprev : copy.doc.previousExported = some entry.doc.exported)
    (hhc : copy.historyComplete = entry.historyComplete) (hseq : copy.nextSeq = entry.nextSeq) :
    w.Holds eng ⟨p.durable.rewind w.k, p.log⟩ := by
  have hkept := h.covers.kept
  have hrew : copy.doc.rewindLastCommit =
      { copy.doc with
        exported := entry.doc.exported
        previousExported := none
        commitsSinceCompaction := copy.doc.commitsSinceCompaction - 1 } := by
    simp only [DataDoc.rewindLastCommit, hprev]
  suffices hnext : w.Awaits eng { copy with doc := copy.doc.rewindLastCommit }
      { copy with doc := copy.doc.rewindLastCommit } ⟨p.durable.rewind w.k, p.log⟩ from hnext.holds
  refine ⟨⟨h.stores.backend, h.stores.started, h.stores.held, h.stores.settled, h.stores.stored,
      h.stores.guarded⟩, h.space, ?_, ⟨⟨?_, ?_, ?_, ?_, ?_, ?_⟩, ?_, ?_⟩⟩
  · show get (modify p.durable.docs w.k _) w.k = _
    rw [get_modify, if_pos rfl, h.copy]
    rfl
  all_goals rw [hrew]
  · exact hap ▸ hkept.closed
  · exact hap ▸ hkept.exported
  · intro v hv
    cases hv
  · exact hkept.saved
  · exact fun hc => hap ▸ hkept.complete (hhc ▸ hc)
  · exact fun seq hle => hkept.fresh seq (hseq ▸ hle)
  · exact hap ▸ h.covers.owes
  · exact hap ▸ h.covers.floor

section
variable {allowed : StorageOp → Fault → Prop} (hfails : Fails allowed) (w : Watch)
  (host : DataHost) (hfloor : Closed host.engine.causality w.floor)
include hfails hfloor
omit hfails hfloor in
lemma folded_delete :
    Upholds allowed (w.Folded host.engine copy) w.Survives (storage (.delete w.id (.delta w.k seq))) := by
  apply storage_spec
  rintro p fault - ⟨hp, hfold⟩
  have hchanged : (((p.durable.disk w.id).remove (.delta w.k seq))).changes w.k =
      (p.durable.disk w.id).changes w.k := remove_delta_changes hfold
  have happly : (p.durable.disk w.id).apply w.id (.delete w.id (.delta w.k seq)) =
      (p.durable.disk w.id).remove (.delta w.k seq) := if_pos rfl
  have hstored : w.Stores (p.after .effect (.delete w.id (.delta w.k seq)) fault) := by
    refine hp.stores.after (fun _ => ?_) (fun _ => ?_) fun _ hr _ => ?_
    · rw [happly, hchanged]
      exact hp.stores.stored
    · rw [happly]
      exact hp.stores.guarded
    · exact absurd (Prod.mk.inj hr).1 (by simp)
  have hnext (hfault : ∀ f, fault ≠ .cut f) : w.Folded host.engine copy
        (p.after .effect (.delete w.id (.delta w.k seq)) fault) := by
    have howed : (w.ledger (p.after .effect (.delete w.id (.delta w.k seq)) fault)).owed =
        (w.ledger p).owed := by
      rw [ledger_after hp.stores.started]
      cases fault with
      | cut f => exact absurd rfl (hfault f)
      | _ => rfl
    refine ⟨⟨hstored, ?_, ?_, ⟨?_, ?_, hp.covers.floor⟩⟩, ?_⟩
    · rw [after_spaces]
      exact hp.space
    · rw [after_docs]
      exact hp.copy
    · rw [after_disk]
      split
      · rw [happly]
        exact hp.covers.kept.dropped hfold seq
      · exact hp.covers.kept
    · rw [howed]
      exact hp.covers.owes
    · rw [after_disk]
      split
      · rw [happly, hchanged]
        exact hfold
      · exact hfold
  cases fault with
  | done => exact hnext (by simp)
  | failed f => exact hnext (by simp)
  | cut f => exact ⟨hstored, owed_after_cut hp.stores.started⟩

lemma folded_drop {copy} : Spec allowed (w.Folded host.engine copy) (dropDeltaLog host w.id w.k)
      (fun _ => w.Folded host.engine copy) E w.Survives := by
  have hlook : Upholds allowed (w.Folded host.engine copy) w.Survives (storage (.list w.id .deltaLog)) := by
    have := ((w.surrounds host hfails.listed hfloor).holding copy).look (.list w.id .deltaLog) rfl
      (fun _ => rfl) fun s =>
        (s.disk w.id).changes w.k = (s.disk w.id).compactedChanges w.k
    refine this.mono (fun p hp => ⟨⟨hp.1.holds, hp.1.copy⟩, hp.2⟩)
      (fun _ p hp => ⟨hp.1.1.awaits hp.1.2, hp.2⟩) (fun _ p hp => ⟨hp.1.1.awaits hp.1.2, hp.2⟩)
      fun _ hp => hp
  have hlist : Upholds allowed (w.Folded host.engine copy) w.Survives (listDeltaLog host w.id) :=
    .bind hlook fun _ => .read fun _ hp => hp
  refine .bind hlist.attempt_keeps fun listed => ?_
  cases listed with
  | error e => exact .skip
  | ok keys =>
    refine .bind (deleteDeltas_spec fun x hx => ?_) fun _ => .skip
    have hxk : x.1 = w.k := of_decide_eq_true (List.mem_filter.1 hx).2
    rw [hxk]
    exact folded_delete w host

omit hfails in
lemma raise_closed (hc : Closed host.engine.causality changes) :
    Closed host.engine.causality (w.raise changes).floor :=
  hfloor.union hc

lemma compactDoc_itself (entry copy) (hap : copy.doc.applied = entry.doc.applied)
    (hhc : copy.historyComplete = entry.historyComplete)
    (hex : copy.doc.exported ⊆ copy.doc.applied)
    (hprev : ∀ v, copy.doc.previousExported = some v → v ⊆ copy.doc.exported) :
    Spec allowed (w.Awaits host.engine entry copy) (compactDoc host w.k) (fun _ p =>
        (entry.historyComplete = true →
          (w.raise entry.doc.applied).Awaits host.engine (copy.compacted host.engine)
            (copy.compacted host.engine) p) ∧
        (entry.historyComplete = false → w.Awaits host.engine entry copy p))
      (fun e p => e = .other ∧ w.Awaits host.engine entry copy p) w.Survives := by
  refine .given (φ := Closed host.engine.causality entry.doc.applied)
    (fun p hp => hp.covers.kept.closed) fun hclosed => ?_
  refine .consult (fun _ hp => hp.copy) ?_
  dsimp only
  split
  · rename_i hcomplete
    have hcomp : entry.historyComplete = true := hhc ▸ hcomplete
    refine .consult (fun _ hp => hp.stores.backend) ?_
    refine .bind (Q := fun _ => (w.raise entry.doc.applied).Folded host.engine copy)
      (.operate (fun p _ hp => ?_) (fun p f hall hp => ⟨rfl, ?_⟩) (fun p f _ hp => ?_)) fun _ => ?_
    · exact hp.compacted hcomp hap hex hprev
    · cases f with
      | true => exact absurd hall (hfails.unapplied _)
      | false =>
        apply hp.failed (by simp [isOf])
        show copy.doc.applied ⊆ entry.doc.applied
        rw [hap]
    · exact hp.cut_compacting hcomp hap f
    · have hraised := raise_closed w host hfloor hclosed
      refine .bind ((folded_drop hfails (w.raise entry.doc.applied) host hraised).mono
        (fun _ hp => hp) (fun _ _ hp => hp) (fun _ _ hp => hp) fun _ hp => hp.lower) fun _ => ?_
      refine .update fun p hp => ⟨fun _ => ?_, fun hc => ?_⟩
      · have hsame : SameCopy copy (copy.compacted host.engine) := ⟨rfl, rfl, rfl, rfl, rfl⟩
        exact hp.1.replace.same hsame
      rw [hcomp] at hc
      cases hc
  · rename_i hincoming
    refine .pure fun p hp => ⟨fun hc => ?_, fun _ => hp⟩
    exact absurd (hhc.trans hc) hincoming

lemma compactOpen :
    Spec allowed (fun p => w.Holds host.engine p ∧ get p.durable.docs w.k = some entry)
      (compactDoc host w.k) (fun _ => w.Holds host.engine) (fun _ => w.Holds host.engine)
      w.Survives := by
  refine .given (φ := entry.doc.exported ⊆ entry.doc.applied ∧
      ∀ v, entry.doc.previousExported = some v → v ⊆ entry.doc.exported)
    (fun p hp => ⟨(hp.1.covers entry hp.2).kept.exported, (hp.1.covers entry hp.2).kept.previous⟩)
    fun hfacts => ?_
  refine (compactDoc_itself hfails w host hfloor entry entry rfl rfl hfacts.1 hfacts.2).mono
    (fun p hp => hp.1.awaits hp.2) (fun _ p hp => ?_) (fun _ p hp => hp.2.holds) fun _ hp => hp
  cases hc : entry.historyComplete with
  | true => exact (hp.1 hc).holds.lower
  | false => exact (hp.2 hc).holds

lemma finishFlush_itself {delta}
    (hsame : SameCopy target (now.written host.engine delta oversized)) :
    Spec allowed (w.Awaits host.engine target now) (finishFlush host w.k fromPeer delta oversized)
      (fun _ => w.Holds host.engine) (fun _ => w.Holds host.engine) w.Survives := by
  refine .consult (fun _ hp => hp.copy) ?_
  dsimp only
  generalize hafter : now.written host.engine delta oversized = after
  rw [hafter] at hsame
  refine .bind (Q := fun _ p => w.Holds host.engine p ∧ get p.durable.docs w.k = some after)
    (.update fun p hp => ?_) fun _ => ?_
  · exact ⟨(hp.replace.same hsame).holds, get_insert_self⟩
  refine .bind (((w.surrounds host hfails.listed hfloor).holding after).announceCommit) fun _ => ?_
  refine .bind (Q := fun _ => w.Holds host.engine) ?_ fun _ => ?_
  · unfold compactWhen
    split
    · exact (compactOpen hfails w host hfloor).mono (fun _ hp => hp) (fun _ _ hp => hp)
        (fun _ _ hp => hp) fun _ hp => hp
    · exact .pure fun _ hp => hp.1
  · refine .bind (Q := fun _ => w.Holds host.engine) (.update fun p hp => ?_) fun _ => ?_
    · exact hp.modified fun entry => ⟨rfl, rfl, rfl, rfl, rfl⟩
    split
    · exact .raise fun _ hp => hp
    · exact .skip

lemma writeCommit_itself {delta} (oversized) (hdelta : entry.doc.pendingDelta = some delta)
    (hwhole : oversized = true → entry.historyComplete = true) :
    Spec allowed
      (w.Awaits host.engine entry { entry with doc := entry.doc.committed host.engine delta })
      (writeCommit host w.k entry.nextSeq delta oversized) (fun _ p => ∃ now target,
        SameCopy target (now.written host.engine delta oversized) ∧
        (w.raise entry.doc.applied).Awaits host.engine target now p)
      (fun e p => e = .other ∧ w.Awaits host.engine entry
        { entry with doc := entry.doc.committed host.engine delta } p) w.Survives := by
  refine .given (φ := entry.doc.exported ⊆ entry.doc.applied)
    (fun p hp => hp.covers.kept.exported) fun hex => ?_
  have hchanged := DataDoc.pendingDelta_changes hdelta
  have hprev : ∀ v, (entry.doc.committed host.engine delta).previousExported = some v →
      v ⊆ entry.doc.applied := fun v hv => Option.some.inj hv ▸ hex
  cases oversized with
  | true =>
    have hcomp := hwhole rfl
    refine (compactDoc_itself hfails w host hfloor entry
      { entry with doc := entry.doc.committed host.engine delta } rfl rfl
      subset_rfl hprev).post fun _ p hp => ?_
    refine ⟨_, _, ?_, hp.1 hcomp⟩
    constructor <;> simp [LoadedDoc.written]
  | false =>
    refine .consult (fun _ hp => hp.stores.backend) ?_
    refine .operate (fun p _ hp => ?_) (fun p f hall hp => ⟨rfl, ?_⟩) fun p f _ hp => ?_
    · refine ⟨_, _, ⟨rfl, rfl, rfl, rfl, rfl⟩, hp.logged hchanged ?_ ?_ ?_ rfl rfl⟩
      · simp [LoadedDoc.written, DataDoc.committed]
      · simp [LoadedDoc.written, DataDoc.committed]
      · simpa [LoadedDoc.written, DataDoc.committed] using hex
    · cases f with
      | true => exact absurd hall (hfails.unapplied _)
      | false =>
        apply hp.failed (by simp [isOf])
        show delta.changes ⊆ entry.doc.applied
        rw [hchanged]
        exact sdiff_subset
    · exact hp.cut_delta hchanged f

lemma flushDocFrom_itself :
    Spec allowed (fun p => w.Holds host.engine p ∧ get p.durable.docs w.k = some entry)
      (flushDocFrom host w.k fromPeer) (fun _ => (w.raise entry.doc.applied).Holds host.engine)
      (fun e p => w.Holds host.engine p ∧
        (e = .docTooLarge → (w.raise entry.doc.applied).Holds host.engine p)) w.Survives := by
  refine .given (φ := Closed host.engine.causality entry.doc.applied)
    (fun p hp => (hp.1.covers entry hp.2).kept.closed) fun hclosed => ?_
  refine .consult (fun _ hp => hp.2) ?_
  dsimp only
  split
  · rename_i hnone
    refine .pure fun p hp => hp.1.raise ?_ fun entry' he => ?_
    · rw [DataDoc.pendingDelta_none hnone]
      exact (hp.1.covers entry hp.2).kept.saved
    rw [hp.2] at he
    cases he
    exact subset_rfl
  rename_i delta hdelta
  refine .bind (Q := fun _ => w.Awaits host.engine entry
      { entry with doc := entry.doc.committed host.engine delta })
    (.update fun p hp => (hp.1.awaits hp.2).replace) fun _ => ?_
  have hrew (e) (he : e = .other) : Spec allowed (w.Awaits host.engine entry
        { entry with doc := entry.doc.committed host.engine delta })
      (do update (.rewind w.k); FaultySchedule.raise e : DataM Unit)
      (fun _ => (w.raise entry.doc.applied).Holds host.engine)
      (fun e p => w.Holds host.engine p ∧
        (e = .docTooLarge → (w.raise entry.doc.applied).Holds host.engine p)) w.Survives := by
    refine .bind (Q := fun _ => w.Holds host.engine)
      (.update fun p hp => hp.rewound rfl rfl rfl rfl) fun _ => ?_
    refine .raise fun p hp => ⟨hp, fun hlarge => ?_⟩
    rw [he] at hlarge
    cases hlarge
  split
  · exact hrew .other rfl
  rename_i hfits
  refine .bind (Q := fun written p => written.casesOn (motive := fun _ => Prop)
      (fun e => e = .other ∧ w.Awaits host.engine entry
        { entry with doc := entry.doc.committed host.engine delta } p)
      fun _ => ∃ now target, SameCopy target (now.written host.engine delta
        (maxProtocolStateRecordBytes < host.engine.bytes delta)) ∧
        (w.raise entry.doc.applied).Awaits host.engine target now p)
    (.attempt (writeCommit_itself hfails w host hfloor _ hdelta fun hover => ?_))
    fun written => ?_
  · simpa [hover] using hfits
  cases written with
  | error e =>
    refine .given (φ := e = .other) (fun _ hp => hp.1) fun he => ?_
    exact (hrew e he).pre fun _ hp => hp.2
  | ok _ =>
    refine .named fun now => .named fun target => ?_
    refine .given (fun _ hp => hp.1) fun hsame => ?_
    have hraised := raise_closed w host hfloor hclosed
    exact (finishFlush_itself hfails (w.raise entry.doc.applied) host hraised
      hsame).mono (fun _ hp => hp.2) (fun _ _ hp => hp) (fun _ _ hp => ⟨hp.lower, fun _ => hp⟩)
      fun _ hp => hp.lower

end

end Watch

end OfflineProtocol
