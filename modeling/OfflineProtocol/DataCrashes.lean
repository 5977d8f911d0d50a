import OfflineProtocol.DataDurability

/-! Runs of the document store in which writes fail and the process dies and starts
again: what was acknowledged is there whenever the document is open. -/
namespace OfflineProtocol
open KeyedTable FaultySchedule CausalPool Finset Ledger
open Interruption (Fault Part Outcome)

/-- Reads and listings succeed; any other call may fail without effect, and any call
may be the last before a crash. -/
def WritesMayFail : StorageOp → Fault → Prop
  | .list _ _, .failed _ => False
  | .read _ _, .failed _ => False
  | _, .failed applied => applied = false
  | _, _ => True

inductive DocOp
  | create (key : DocKey)
  | readVersion (key : DocKey)
  | edit (key : DocKey) (growth : Bool) (change : Change)
  | flush (key : DocKey)
  | applyRemote (key : DocKey) (blob : Option Blob)
  | listDocs (space : SpaceName)
  | offer (space : SpaceName)
  | crash
  deriving DecidableEq

def contents : Option LoadedDoc → Finset Change
  | some entry => entry.doc.applied
  | none => ∅

def DocOp.perform (host : DataHost) : DocOp → DataM (Option RemoteImport)
  | .create key => do
    dataCreateDoc host key
    pure none
  | .readVersion key => do
    let _ ← dataDocVersion host key
    pure none
  | .edit key growth change => do
    withDoc host key growth change
    pure none
  | .flush key => do
    dataFlush host key
    pure none
  | .applyRemote key blob => do
    let outcome ← dataApplyRemote host key blob
    pure (some outcome)
  | .listDocs space => do
    let _ ← dataListDocs host space
    pure none
  | .offer space => do
    (offerOps host space).offerVersions
    pure none
  | .crash => pure none

/-- The changes of `k` that an operation reports as durable. `before` is what the
open document held when the operation began. -/
def DocOp.acknowledges (k : DocKey) (before : Finset Change) :
    DocOp → Outcome DataError (Option RemoteImport) → Finset Change
  | .flush key, .returned _ => if key = k then before else ∅
  | .flush key, .raised .docTooLarge => if key = k then before else ∅
  | .applyRemote key (some blob), .returned (some .applied) => if key = k then blob.changes else ∅
  | _, _ => ∅

structure DocRun where
  part : Part DataLayer StorageOp
  acknowledged : Finset Change

def crashed (p : Part DataLayer StorageOp) : Part DataLayer StorageOp :=
  let cut := p.after DataLayer.effect (.list p.durable.backend .spaces) (.cut false)
  ⟨cut.durable.restarted, cut.log⟩

namespace DocRun
variable (host : DataHost) (k : DocKey) (schedule : Schedule StorageOp)

def step (r : DocRun) (op : DocOp) : DocRun :=
  let result := op.perform host schedule r.part
  let part :=
    if op = .crash then crashed r.part
    else match result.1 with
      | .cut => ⟨result.2.durable.restarted, result.2.log⟩
      | _ => result.2
  ⟨part, r.acknowledged ∪ op.acknowledges k (contents (get r.part.durable.docs k)) result.1⟩

def run (r : DocRun) (ops : List DocOp) : DocRun := ops.foldl (step host k schedule) r

end DocRun

namespace Watch

def Grew (w : Watch) (eng : Engine) (changes : Finset Change) (p : Part DataLayer StorageOp) :
    Prop :=
  ∃ c, changes ⊆ c ∧ Closed eng.causality c ∧ (w.raise c).Holds eng p

variable {w : Watch}

lemma Holds.grew (h : w.Holds eng p) : w.Grew eng ∅ p :=
  ⟨∅, subset_rfl, closed_empty _, h.raise (empty_subset _) fun _ _ => empty_subset _⟩

/-- After a crash the store is as it was left, and nothing is open. -/
lemma Survives.restarted (h : w.Survives p) : w.Holds eng ⟨p.durable.restarted, p.log⟩ where
  stores := ⟨h.stores.backend, h.stores.started, h.stores.held, h.stores.settled, h.stores.stored,
    h.stores.guarded⟩
  loaded hk := absurd hk (AList.notMem_empty w.k)
  closed _ := h.settled
  covers entry he := by
    have hnone : get (∅ : Table DocKey LoadedDoc) w.k = none := rfl
    exact absurd (hnone.symm.trans he) (by simp)

lemma Holds.crashed (h : w.Holds eng p) : w.Holds eng (crashed p) :=
  Survives.restarted ⟨h.stores.spared rfl, owed_after_cut h.stores.started⟩

section
variable {allowed : StorageOp → Fault → Prop} (hfails : Fails allowed) (w : Watch)
  (host : DataHost) (hfloor : Closed host.engine.causality w.floor)
include hfails hfloor

lemma openDoc_itself (o) :
    Spec allowed (fun p => w.Holds host.engine p ∧ get p.durable.docs w.k = o) (openDoc host w.k)
      (fun _ p => ∃ entry, (w.Holds host.engine p ∧ get p.durable.docs w.k = some entry) ∧
        ∀ e, o = some e → e = entry) (fun _ p => w.Holds host.engine p ∧ o = none) w.Survives := by
  cases o with
  | none =>
    refine ((w.surrounds host hfails.listed hfloor).openDoc w.k).mono (fun _ hp => hp.1)
      (fun _ p hp => ?_) (fun _ _ hp => ⟨hp, rfl⟩) fun _ hp => hp
    obtain ⟨entry, hentry⟩ := Option.isSome_iff_exists.1 (get_isSome_iff.2 hp.2)
    exact ⟨entry, ⟨hp.1, hentry⟩, nofun⟩
  | some entry =>
    have hopen : Spec allowed (fun p => w.Holds host.engine p ∧
        get p.durable.docs w.k = some entry) (openDoc host w.k)
        (fun _ p => w.Holds host.engine p ∧ get p.durable.docs w.k = some entry)
        (fun _ _ => False) w.Survives := openDoc_open fun p hp => mem_of_get hp.2
    exact hopen.mono (fun _ hp => hp)
      (fun _ p hp => ⟨entry, hp, fun e he => (Option.some.inj he).symm⟩) (fun _ _ hp => hp.elim)
      fun _ hp => hp

lemma dataFlush_itself (o) :
    Spec allowed (fun p => w.Holds host.engine p ∧ get p.durable.docs w.k = o)
      (dataFlush host w.k) (fun _ => w.Grew host.engine (contents o))
      (fun e p => w.Holds host.engine p ∧ (e = .docTooLarge → w.Grew host.engine (contents o) p))
      w.Survives := by
  refine .bind ((openDoc_itself hfails w host hfloor o).raising
    (fun e p hp => ⟨hp.1, fun _ => ?_⟩)) fun _ => .named fun entry => ?_
  · rw [hp.2]
    exact hp.1.grew
  refine .given (φ := contents o ⊆ entry.doc.applied ∧
      Closed host.engine.causality entry.doc.applied) (fun p hp => ⟨?_, ?_⟩) fun hfacts => ?_
  · cases o with
    | none => exact empty_subset _
    | some e =>
      rw [hp.2 e rfl]
      exact subset_rfl
  · exact (hp.1.1.covers entry hp.1.2).kept.closed
  · refine (flushDocFrom_itself hfails w host hfloor).mono (fun _ hp => hp.1)
      (fun _ p hp => ?_) (fun e p hp => ⟨hp.1, fun he => ?_⟩) fun _ hp => hp
    · exact ⟨_, hfacts.1, hfacts.2, hp⟩
    · exact ⟨_, hfacts.1, hfacts.2, hp.2 he⟩

omit hfails hfloor in
lemma grown_edit (hclosed : Closed host.engine.causality entry.doc.applied)
    (h : entry.doc.edit host.engine change = some doc) :
    Grown host.engine entry { entry with doc := doc } := by
  unfold DataDoc.edit at h
  split at h
  · rename_i hpast
    cases h
    exact ⟨subset_insert _ _, hclosed.insert hpast, rfl, rfl, fun hc => hc, rfl⟩
  · cases h

lemma withDoc_itself :
    Upholds allowed (w.Holds host.engine) w.Survives (withDoc host w.k growth change) := by
  refine .bind (Q := fun _ p => w.Holds host.engine p ∧ w.k ∈ p.durable.docs)
    ((w.surrounds host hfails.listed hfloor).openDoc w.k) fun _ => ?_
  refine .bind (Q := fun found p => w.Holds host.engine p ∧ get p.durable.docs w.k = found)
    (.read fun p hp => ⟨hp.1, rfl⟩) fun found => ?_
  cases found with
  | none => exact .raise fun _ hp => hp.1
  | some entry =>
    dsimp only
    split
    · exact .raise fun _ hp => hp.1
    split
    · exact .raise fun _ hp => hp.1
    rename_i doc hdoc
    refine .update fun p hp => ?_
    have hclosed := (hp.1.covers entry hp.2).kept.closed
    exact ((hp.1.awaits hp.2).grown (grown_edit host hclosed hdoc)).holds

omit hfails hfloor in
lemma grown_import (hclosed : Closed host.engine.causality entry.doc.applied)
    (h : entry.doc.importRemote host.engine blob = some (outcome, doc)) :
    Grown host.engine entry
      { entry with
        doc := doc
        historyComplete := entry.historyComplete && outcome ≠ .parked } ∧
    (outcome = .applied → ∀ b, blob = some b → b.changes ⊆ doc.applied) := by
  have hcomp {x} : (entry.historyComplete && x) = true → entry.historyComplete = true :=
    fun hc => (Bool.and_eq_true_iff.1 hc).1
  cases blob with
  | none => cases h
  | some b =>
    have hgrow : entry.doc.applied ⊆ (entry.doc.afterImport host.engine b).applied := by
      apply hclosed.subset_ready
      exact subset_union_left.trans subset_union_left
    simp only [DataDoc.importRemote] at h
    split at h
    · cases h
      exact ⟨⟨subset_rfl, hclosed, rfl, rfl, hcomp, rfl⟩, nofun⟩
    split at h
    · cases h
      exact ⟨⟨subset_rfl, hclosed, rfl, rfl, hcomp, rfl⟩, nofun⟩
    split at h
    · rename_i happlied
      cases h
      refine ⟨⟨hgrow, ready_closed, rfl, rfl, hcomp, rfl⟩, fun _ b' hb => ?_⟩
      cases hb
      simp only [DataDoc.importOutcome] at happlied
      split at happlied
      · assumption
      · cases happlied
    · cases h
      exact ⟨⟨hgrow, ready_closed, rfl, rfl, hcomp, rfl⟩, nofun⟩

lemma dataApplyRemote_itself {blob} :
    Spec allowed (w.Holds host.engine) (dataApplyRemote host w.k blob)
      (fun outcome p => w.Holds host.engine p ∧ (outcome = .applied →
        ∀ b, blob = some b → w.Grew host.engine b.changes p))
      (fun _ => w.Holds host.engine) w.Survives := by
  refine .bind (Q := fun _ p => w.Holds host.engine p ∧ w.k ∈ p.durable.docs)
    ((w.surrounds host hfails.listed hfloor).openDoc w.k) fun _ => ?_
  refine .bind (Q := fun found p => w.Holds host.engine p ∧ get p.durable.docs w.k = found)
    (.read fun p hp => ⟨hp.1, rfl⟩) fun found => ?_
  cases found with
  | none => exact .raise fun _ hp => hp.1
  | some entry =>
    refine .given (φ := Closed host.engine.causality entry.doc.applied)
      (fun p hp => (hp.1.covers entry hp.2).kept.closed) fun hclosed => ?_
    dsimp only
    split
    · exact .raise fun _ hp => hp.1
    rename_i outcome doc himport
    obtain ⟨hgrown, hblob⟩ := grown_import host hclosed himport
    generalize hentry : ({ entry with
      doc := doc
      historyComplete := entry.historyComplete && outcome ≠ .parked } : LoadedDoc) = entry' at *
    have hdoc : entry'.doc = doc := hentry ▸ rfl
    refine .bind (Q := fun _ p => w.Holds host.engine p ∧
        get p.durable.docs w.k = some entry') (.update fun p hp => ?_) fun _ => ?_
    · have hnext := (hp.1.awaits hp.2).grown hgrown
      exact ⟨hnext.holds, hnext.copy⟩
    split
    · have hraised := raise_closed w host hfloor hgrown.closed
      have hsur := (w.raise entry'.doc.applied).surrounds host hfails.listed hraised
      refine .bind (tolerateTooLarge_spec
        ((flushDocFrom_itself hfails w host hfloor).raising
          (fun _ _ hp => ⟨hp.2, fun _ => hp.1⟩))) fun _ => ?_
      refine .bind ((hsur.persistSpace w.k.1).mono (fun _ hp => hp) (fun _ _ hp => hp)
        (fun _ _ hp => hp.lower) fun _ hp => hp.lower) fun _ => .pure fun p hp => ?_
      refine ⟨hp.lower, fun happlied b hb => ⟨_, ?_, hgrown.closed, hp⟩⟩
      rw [hdoc]
      exact hblob happlied b hb
    · rename_i hother
      exact .pure fun p hp => ⟨hp.1, fun happlied => absurd happlied hother⟩

lemma perform_itself (op : DocOp) (o) :
    Spec allowed (fun p => w.Holds host.engine p ∧ get p.durable.docs w.k = o) (op.perform host)
      (fun r => w.Grew host.engine (op.acknowledges w.k (contents o) (.returned r)))
      (fun e => w.Grew host.engine (op.acknowledges w.k (contents o) (.raised e)))
      w.Survives := by
  have hsur := w.surrounds host hfails.listed hfloor
  -- An operation that acknowledges nothing has only to keep what is known.
  have hplain {α : Type} {m : DataM α} (hnone : ∀ out, op.acknowledges w.k (contents o) out = ∅)
      (hm : Upholds allowed (w.Holds host.engine) w.Survives m) (r : Option RemoteImport) :
      Spec allowed (fun p => w.Holds host.engine p ∧ get p.durable.docs w.k = o)
        (m >>= fun _ => pure r)
        (fun r => w.Grew host.engine (op.acknowledges w.k (contents o) (.returned r)))
        (fun e => w.Grew host.engine (op.acknowledges w.k (contents o) (.raised e)))
        w.Survives := by
    refine .bind (hm.mono (fun _ hp => hp.1) (fun _ _ hp => hp) (fun e p hp => ?_)
      fun _ hp => hp) fun _ => .pure fun p hp => ?_
    · rw [hnone]
      exact hp.grew
    rw [hnone]
    exact hp.grew
  cases op with
  | create key => exact hplain (fun _ => rfl) (hsur.dataCreateDoc key) none
  | readVersion key => exact hplain (fun _ => rfl) (hsur.readDoc _) none
  | listDocs space => exact hplain (fun _ => rfl) (hsur.dataListDocs space) none
  | offer space => exact hplain (fun _ => rfl) (hsur.offerVersions space) none
  | crash => exact .pure fun _ hp => hp.1.grew
  | edit key growth change =>
    refine hplain (fun _ => rfl) ?_ none
    by_cases hkey : key = w.k
    · rw [hkey]
      exact withDoc_itself hfails w host hfloor
    · exact hsur.withDoc hkey
  | flush key =>
    by_cases hkey : key = w.k
    · subst hkey
      refine .bind ((dataFlush_itself hfails w host hfloor o).raising (fun e p hp => ?_))
        fun _ => .pure fun p hp => ?_
      · cases e with
        | docTooLarge =>
          simp only [DocOp.acknowledges, if_pos]
          exact hp.2 rfl
        | _ => exact hp.1.grew
      · simp only [DocOp.acknowledges, if_pos]
        exact hp
    · refine hplain (fun out => ?_) (hsur.dataFlush hkey) none
      cases out with
      | raised e => cases e <;> simp [DocOp.acknowledges, hkey]
      | _ => simp [DocOp.acknowledges, hkey]
  | applyRemote key blob =>
    by_cases hkey : key = w.k
    · subst hkey
      refine .bind ((dataApplyRemote_itself hfails w host hfloor).mono (fun _ hp => hp.1)
        (fun _ _ hp => hp) (fun e p hp => ?_) fun _ hp => hp) fun outcome => .pure fun p hp => ?_
      · cases blob <;> exact hp.grew
      cases blob with
      | none => exact hp.1.grew
      | some b =>
        cases outcome with
        | applied =>
          simp only [DocOp.acknowledges, if_pos]
          exact hp.2 rfl b rfl
        | _ => exact hp.1.grew
    · refine .bind ((hsur.dataApplyRemote hkey).mono (fun _ hp => hp.1)
        (fun _ _ hp => hp) (fun e p hp => ?_) fun _ hp => hp) fun outcome => .pure fun p hp => ?_
      · cases blob <;> exact hp.grew
      have hnone : (DocOp.applyRemote key blob).acknowledges w.k (contents o)
          (.returned (some outcome)) = ∅ := by
        cases blob <;> cases outcome <;> simp [DocOp.acknowledges, hkey]
      rw [hnone]
      exact hp.grew

end

end Watch

def Secured (w : Watch) (eng : Engine) (r : DocRun) : Prop :=
  w.Grew eng r.acknowledged r.part

section
variable {host : DataHost} {schedule : Schedule StorageOp} (hschedule : schedule.Within WritesMayFail)
  {w : Watch}

lemma writesMayFail_fails : Watch.Fails WritesMayFail where
  listed _ _ h := h
  unapplied op h := by
    cases op with
    | list => exact h
    | read => exact h
    | write => cases h
    | delete => cases h

lemma Watch.Grew.trans (hsub : changes ⊆ c) (hc : Closed eng.causality c)
    (h : (w.raise c).Grew eng changes' p) : w.Grew eng (changes ∪ changes') p := by
  obtain ⟨c', hsub', hc', hp⟩ := h
  have hassoc : (w.raise c).raise c' = w.raise (c ∪ c') := by
    simp only [Watch.raise, union_assoc]
  exact ⟨c ∪ c', union_subset_union hsub hsub', hc.union hc', hassoc ▸ hp⟩

include hschedule in
lemma secured_step (hfloor : Closed host.engine.causality w.floor)
    (h : Secured w host.engine r) {op} : Secured w host.engine (r.step host w.k schedule op) := by
  obtain ⟨c, hsub, hc, hp⟩ := h
  have hraised := Watch.raise_closed w host hfloor hc
  have hspec := Watch.perform_itself writesMayFail_fails (w.raise c) host hraised op _ schedule
    hschedule r.part ⟨hp, rfl⟩
  refine .trans hsub hc ?_
  unfold DocRun.step
  by_cases hop : op = .crash
  · subst hop
    exact hp.crashed.grew
  dsimp only
  rw [if_neg hop]
  cases hr : op.perform host schedule r.part with
  | mk out p' =>
    rw [hr] at hspec
    cases out with
    | returned a => exact hspec
    | raised e => exact hspec
    | cut =>
      have hnone : op.acknowledges w.k (contents (get r.part.durable.docs w.k)) .cut = ∅ := by
        cases op with
        | applyRemote key blob => cases blob <;> rfl
        | _ => rfl
      rw [hnone]
      exact hspec.restarted.grew

include hschedule in
lemma secured_run (hfloor : Closed host.engine.causality w.floor) (ops)
    (h : Secured w host.engine r) : Secured w host.engine (r.run host w.k schedule ops) := by
  induction ops generalizing r with
  | nil => exact h
  | cons op ops ih => exact ih (secured_step hschedule hfloor h)

end

def DataBackend.afterCalls (id : ℕ) (b : DataBackend) (log : List (StorageOp × Fault)) : DataBackend :=
  log.foldl (fun b e => if e.2.applied then b.apply id e.1 else b) b

/-- A crash, or a record of the document that was written: after it no failed write
is open. -/
def settles (k : DocKey) (id : ℕ) : StorageOp × Fault → Bool
  | (_, .cut _) => true
  | (.write backend record, .done) => backend = id && record.isOf k
  | _ => false

lemma ledger_held (k id b log) : (Ledger.run k id b log).held = b.afterCalls id log := by
  induction log using List.reverseRecOn with
  | nil => rfl
  | append_singleton log e ih =>
    rw [run_concat, DataBackend.afterCalls, List.foldl_append, enter, ih]
    rfl

lemma owed_grows {k id} (l : Ledger)
    (he : settles k id e = false) : l.owed ⊆ (l.enter k id e).owed := by
  obtain ⟨op, fault⟩ := e
  cases fault with
  | cut f => cases op <;> cases he
  | done =>
    cases op with
    | write backend record =>
      have hother : ¬(backend = id ∧ record.isOf k = true) := by
        simpa [settles] using he
      simp only [enter, owedAfter, if_neg hother]
      exact subset_rfl
    | _ => exact subset_rfl
  | failed f =>
    cases op with
    | write backend record =>
      simp only [enter, owedAfter]
      split
      · exact subset_union_left
      · exact subset_rfl
    | _ => exact subset_rfl

lemma owed_grows_along {k id} (hbetween : ∀ e ∈ between, settles k id e = false) :
    (Ledger.run k id b log).owed ⊆ (Ledger.run k id b (log ++ between)).owed := by
  induction between using List.reverseRecOn with
  | nil => simp
  | append_singleton between e ih =>
    rw [← List.append_assoc, run_concat]
    have hgrow := owed_grows (.run k id b (log ++ between)) (hbetween e (by simp))
    exact (ih fun e' he' => hbetween e' (by simp [he'])).trans hgrow

/-- The next record written carries what a failed one did not store. -/
lemma DebtsPaid.repaid {k id} (h : DebtsPaid k id b log)
    (hlog : log = before ++ (.write id record, .failed f) ::
      (between ++ (.write id record', .done) :: after))
    (hof : record.isOf k = true) (hof' : record'.isOf k = true)
    (hbetween : ∀ e ∈ between, settles k id e = false) :
    record.changes \ (b.afterCalls id before).changes k ⊆ record'.changes := by
  have hpaid := h (before ++ [(.write id record, .failed f)] ++ between) record' after
    (by rw [hlog]; simp) hof'
  refine Finset.Subset.trans ?_ ((owed_grows_along hbetween).trans hpaid)
  rw [run_concat]
  simp only [enter, owedAfter, hof, and_self, if_true, ledger_held]
  exact subset_union_right

/-- A document that is never removed, under failing writes and crashes. Whenever it
is open it holds every change that was reported durable, and until the process dies
a change whose write failed is in the next record of the document that is written. -/
theorem acknowledged_changes_survive (host : DataHost) (schedule : Schedule StorageOp)
    (hschedule : schedule.Within WritesMayFail) (k : DocKey) (s : DataLayer) (hs : s.docs = ∅)
    (hk : Unremoved s.stored.docMeta k) (ops : List DocOp) :
    let r := DocRun.run host k schedule ⟨⟨s, []⟩, ∅⟩ ops
    (∀ entry, get r.part.durable.docs k = some entry → r.acknowledged ⊆ entry.doc.applied) ∧
    ∀ before record between record' after f,
      r.part.log = before ++ (.write s.backend record, .failed f) ::
        (between ++ (.write s.backend record', .done) :: after) →
      record.isOf k = true → record'.isOf k = true →
      (∀ e ∈ between, settles k s.backend e = false) →
      record.changes \ (s.stored.afterCalls s.backend before).changes k ⊆ record'.changes := by
  intro r
  have hnone : get s.docs k = none := by
    rw [hs]
    rfl
  have hstart : Watch.Holds ⟨k, s.backend, s.stored, 0, ∅⟩ host.engine ⟨s, []⟩ := by
    refine ⟨⟨rfl, Nat.le_refl 0, rfl, debtsPaid_nil, empty_subset _, hk⟩, fun hmem => ?_,
      fun _ => rfl, fun entry he => ?_⟩
    · rw [hs] at hmem
      exact absurd hmem (AList.notMem_empty k)
    · exact absurd (hnone.symm.trans he) (by simp)
  obtain ⟨c, hsub, -, hholds⟩ :=
    secured_run hschedule (closed_empty _) ops (r := ⟨⟨s, []⟩, ∅⟩) hstart.grew
  constructor
  · intro entry he
    exact hsub.trans (subset_union_right.trans (hholds.covers entry he).floor)
  intro before record between record' after f hlog hof hof' hbetween
  exact hholds.stores.settled.repaid hlog hof hof' hbetween

def plainHost : DataHost where
  engine := ⟨⟨fun _ => ∅, fun _ _ h => absurd h (notMem_empty _)⟩, fun _ => ∅, fun _ => 1,
    fun _ => 1⟩
  replicates _ := true
  tombstones _ := true
  interests _ := true
  media _ := true
  interestMatches _ _ := true
  listing keys := keys
  listing_perm _ := .refl _

def freshLayer : DataLayer := ⟨fun _ => .empty, 0, ∅, ∅, ∅, ∅, ∅, []⟩

/-- The first delta record of a run that creates and edits one document is not
written. -/
def firstDeltaFails : Schedule StorageOp
  | .write _ (.delta _ _ _), n => if n = 7 then .failed false else .done
  | _, _ => .done

lemma firstDeltaFails_within : firstDeltaFails.Within WritesMayFail := by
  intro op n
  cases op with
  | write backend record =>
    cases record with
    | delta key seq blob =>
      by_cases hn : n = 7
      · simp [firstDeltaFails, hn, WritesMayFail]
      · simp [firstDeltaFails, hn, WritesMayFail]
    | _ => trivial
  | _ => trivial

theorem acknowledged_changes_survive_crash :
    let r := DocRun.run plainHost (0, 0) firstDeltaFails ⟨⟨freshLayer, []⟩, ∅⟩
      [.create (0, 0), .edit (0, 0) true 1, .flush (0, 0), .edit (0, 0) true 2, .flush (0, 0), .crash,
        .readVersion (0, 0)]
    r.acknowledged = {1, 2} ∧ (get r.part.durable.docs (0, 0)).isSome = true ∧
    ∀ entry, get r.part.durable.docs (0, 0) = some entry → r.acknowledged ⊆ entry.doc.applied :=
  ⟨by decide +kernel, by decide +kernel,
    (acknowledged_changes_survive plainHost firstDeltaFails firstDeltaFails_within (0, 0) freshLayer
      rfl (nofun) _).1⟩

/-- A crash between the failed write and the next one loses the change. -/
theorem failed_change_lost_in_crash :
    let log := (DocRun.run plainHost (0, 0) firstDeltaFails ⟨⟨freshLayer, []⟩, ∅⟩
      [.create (0, 0), .edit (0, 0) true 1, .flush (0, 0), .crash, .readVersion (0, 0),
        .edit (0, 0) true 2, .flush (0, 0)]).part.log
    log = log.take 7 ++ (.write 0 (.delta (0, 0) 0 ⟨{1}, false, ∅⟩), .failed false) ::
      ((log.drop 8).take 7 ++ [(.write 0 (.delta (0, 0) 0 ⟨{2}, false, ∅⟩), .done)]) ∧
    (∀ e ∈ (log.drop 8).take 7, e.1.touches (0, 0) = false) ∧
    1 ∉ (freshLayer.stored.afterCalls 0 (log.take 7)).changes (0, 0) := by
  decide +kernel

end OfflineProtocol
