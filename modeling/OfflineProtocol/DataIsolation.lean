import OfflineProtocol.DataRecords

/-! An invariant that speaks of the records and the in-memory copy of one document
holds through everything that touches neither, whichever storage calls fail on the
way. -/
namespace OfflineProtocol
open KeyedTable FaultySchedule CausalPool DataLayer DataBackend List DataDoc
open Interruption (Fault Part Outcome)

def Unremoved (removals : Table DocKey DocMeta) (k : DocKey) : Prop :=
  ∀ removal, get removals k = some removal → removal.alive = true

namespace StateRecord

def removes (k : DocKey) : StateRecord → Bool
  | .docMeta key removal => key = k && !removal.alive
  | _ => false

end StateRecord

namespace StorageOp

def spares (k : DocKey) : StorageOp → Bool
  | .write _ record => !record.isOf k && !record.removes k
  | .delete _ key => !key.isOf k && key ≠ .docMeta k
  | _ => true

lemma touches_of_spares {op : StorageOp} (h : op.spares k = true) : op.touches k = false := by
  cases op with
  | list backend category => rfl
  | read backend key => rfl
  | write backend record =>
    have h' := (Bool.and_eq_true _ _ ▸ h : _ ∧ _).1
    exact (Bool.not_eq_true' _).mp h'
  | delete backend key =>
    have h' := (Bool.and_eq_true _ _ ▸ h : _ ∧ _).1
    exact (Bool.not_eq_true' _).mp h'

end StorageOp

variable {p : Part DataLayer StorageOp} {op : StorageOp} {fault : Fault}

lemma Unremoved.apply {b : DataBackend} (h : Unremoved b.docMeta k)
    (hop : op.spares k = true) {id} : Unremoved (b.apply id op).docMeta k := by
  cases op with
  | list backend category => exact h
  | read backend key => exact h
  | write backend record =>
    by_cases hid : backend = id
    · simp only [DataBackend.apply, if_pos hid]
      cases record with
      | docMeta key removal =>
        intro removal' hget
        rcases of_get_insert hget with ⟨hkey, rfl⟩ | ⟨-, hget'⟩
        · simpa [StorageOp.spares, StateRecord.isOf, StateRecord.removes, hkey] using hop
        · exact h removal' hget'
      | _ => exact h
    · simp only [DataBackend.apply, if_neg hid]
      exact h
  | delete backend key =>
    by_cases hid : backend = id
    · simp only [DataBackend.apply, if_pos hid]
      cases key with
      | docMeta key =>
        intro removal' hget
        exact h removal' (of_get_erase hget).2
      | _ => exact h
    · simp only [DataBackend.apply, if_neg hid]
      exact h

structure KeepsDoc (k : DocKey) (s s' : DataLayer) : Prop where
  disk : s'.disk = s.disk
  backend : s'.backend = s.backend
  doc : get s'.docs k = get s.docs k
  spaces : ∀ space, space ∈ s.spaces → space ∈ s'.spaces
  named : k ∈ s.docs → k.2 ∈ s.names k.1 → k.2 ∈ s'.names k.1
  sent : ∀ frame ∈ s.sent, frame ∈ s'.sent

def Ends (J K : Part DataLayer StorageOp → Prop) : Fault → Part DataLayer StorageOp → Prop
  | .cut _ => K
  | _ => J

structure Isolates (allowed : StorageOp → Fault → Prop) (k : DocKey)
    (J K : Part DataLayer StorageOp → Prop) : Prop where
  loaded : ∀ p, J p → k ∈ p.durable.docs → k.1 ∈ p.durable.spaces
  call : ∀ p op fault, op.spares k → allowed op fault → J p →
    Ends J K fault (p.after effect op fault)
  memory : ∀ p s, KeepsDoc k p.durable s → J p → J ⟨s, p.log⟩
  purge : ∀ p key fault, key.isOf k → allowed (.delete p.durable.backend key) fault →
    get p.durable.docs k = none → ¬Unremoved p.durable.stored.docMeta k → J p →
    Ends J K fault (p.after effect (.delete p.durable.backend key) fault)

lemma after_docs : (p.after effect op fault).durable.docs = p.durable.docs := by
  by_cases hf : fault.applied = true
  · rw [Part.after_applied hf, effect_docs]
  · rw [Part.after_unapplied hf]

lemma after_spaces : (p.after effect op fault).durable.spaces = p.durable.spaces := by
  by_cases hf : fault.applied = true
  · rw [Part.after_applied hf, effect_spaces]
  · rw [Part.after_unapplied hf]

lemma after_backend : (p.after effect op fault).durable.backend = p.durable.backend := by
  by_cases hf : fault.applied = true
  · rw [Part.after_applied hf, effect_backend]
  · rw [Part.after_unapplied hf]

lemma after_disk (id) : (p.after effect op fault).durable.disk id =
      if fault.applied then (p.durable.disk id).apply id op else p.durable.disk id := by
  by_cases hf : fault.applied = true
  · rw [Part.after_applied hf, effect_disk, if_pos hf]
  · rw [Part.after_unapplied hf, if_neg hf]

lemma after_write (id record fault) (hf : fault.applied = true) :
    (p.after effect (.write id record) fault).durable.disk id = (p.durable.disk id).put record := by
  rw [after_disk, if_pos hf, apply, if_pos rfl]

lemma after_sent : (p.after effect op fault).durable.sent = p.durable.sent := by
  by_cases hf : fault.applied = true
  · rw [Part.after_applied hf, effect_sent]
  · rw [Part.after_unapplied hf]

lemma after_names (space) :
    (p.after effect op fault).durable.names space = p.durable.names space := by
  rw [names, after_spaces]
  rfl

lemma after_delete_docMeta {backend} (hkey : ∀ key', key ≠ .docMeta key') :
    (p.after effect (.delete backend key) fault).durable.stored.docMeta =
      p.durable.stored.docMeta := by
  have hrem (b : DataBackend) : (b.remove key).docMeta = b.docMeta := by
    cases key with
    | docMeta key' => exact absurd rfl (hkey key')
    | _ => rfl
  rw [stored, after_backend, after_disk]
  split
  · unfold apply
    dsimp only
    split
    · exact hrem _
    · rfl
  · rfl

lemma Ends.and {J K P : Part DataLayer StorageOp → Prop} (h : Ends J K fault p) (hp : P p) :
    Ends (fun p => J p ∧ P p) K fault p := by
  cases fault with
  | done => exact ⟨h, hp⟩
  | failed f => exact ⟨h, hp⟩
  | cut f => exact h

section
variable {allowed : StorageOp → Fault → Prop} {J K : Part DataLayer StorageOp → Prop}

lemma storage_spec
    (h : ∀ p fault, allowed op fault → J p → Ends J K fault (p.after effect op fault)) :
    Upholds allowed J K (storage op) :=
  .operate (fun p hall hp => h p .done hall hp) (fun p f hall hp => h p (.failed f) hall hp)
    fun p f hall hp => h p (.cut f) hall hp

lemma deleteDeltas_spec {backend keys}
    (h : ∀ x ∈ keys, Upholds allowed P K (storage (.delete backend (.delta x.1 x.2)))) :
    Spec allowed P (deleteDeltas backend keys) (fun _ => P) E K := by
  induction keys with
  | nil => exact .skip
  | cons x xs ih =>
    have hx := h x (.head _)
    have hxs := ih fun y hy => h y (mem_cons_of_mem x hy)
    exact hx.attempt_keeps.bind fun _ => hxs.bind fun _ => .skip

lemma purgeDocRecords_spec {host backend}
    (hdoc : Upholds allowed P K (storage (.delete backend (.doc key))))
    (hlist : Upholds allowed P K (storage (.list backend .deltaLog)))
    (hdelta : ∀ seq, Upholds allowed P K (storage (.delete backend (.delta key seq)))) :
    Spec allowed P (purgeDocRecords host backend key deltaKeys) (fun _ => P) E K := by
  have hdelt (keys : List (DocKey × ℕ)) :
      Spec allowed P (deleteDeltas backend (keys.filter fun x => x.1 = key)) (fun _ => P) E K := by
    apply deleteDeltas_spec
    intro x hx
    have hxk : x.1 = key := of_decide_eq_true (mem_filter.1 hx).2
    rw [hxk]
    exact hdelta x.2
  refine hdoc.attempt_keeps.bind fun gone => ?_
  have hlisted : Upholds allowed P K (listDeltaLog host backend) :=
    hlist.bind fun _ => .read fun _ => id
  cases deltaKeys
  case' none => refine hlisted.attempt_keeps.bind fun listed => ?_
  case' some keys => refine .bind (Q := fun _ => P) .skip fun listed => ?_
  all_goals
    cases listed with
    | ok keys => exact (hdelt keys).bind fun _ => .skip
    | error e => exact .skip

end

namespace Isolates
variable {allowed : StorageOp → Fault → Prop} {k : DocKey} {host : DataHost}
  {J K : Part DataLayer StorageOp → Prop} (h : Isolates allowed k J K)
include h

lemma pinned {φ : Part DataLayer StorageOp → Prop}
    (hcall : ∀ p op fault, φ p → φ (p.after DataLayer.effect op fault))
    (hmemory : ∀ p s, KeepsDoc k p.durable s → φ p → φ ⟨s, p.log⟩) :
    Isolates allowed k (fun p => J p ∧ φ p) K where
  loaded p hp := h.loaded p hp.1
  call p op fault hop hall hp := (h.call p op fault hop hall hp.1).and (hcall p op fault hp.2)
  memory p s hs hp := ⟨h.memory p s hs hp.1, hmemory p s hs hp.2⟩
  purge p key fault hkey hall hdoc hgone hp :=
    (h.purge p key fault hkey hall hdoc hgone hp.1).and (hcall p _ fault hp.2)

lemma pin (φ copy) : Isolates allowed k (fun p => J p ∧ (φ → get p.durable.docs k = copy)) K :=
  h.pinned (fun p op fault hp => by rw [after_docs]; exact hp)
    fun p s hs hp hφ => hs.doc.trans (hp hφ)

lemma pinBackend (backend) : Isolates allowed k (fun p => J p ∧ p.durable.backend = backend) K :=
  h.pinned (fun p op fault hp => by rw [after_backend]; exact hp)
    fun p s hs hp => hs.backend.trans hp

lemma pinFact (φ) : Isolates allowed k (fun p => J p ∧ φ) K :=
  h.pinned (fun _ _ _ => id) fun _ _ _ => id

lemma pinSpace (space) : Isolates allowed k (fun p => J p ∧ space ∈ p.durable.spaces) K :=
  h.pinned (fun p op fault hp => by rw [after_spaces]; exact hp) fun p s hs hp => hs.spaces space hp

lemma storage (hop : op.spares k = true) : Upholds allowed J K (storage op) :=
  storage_spec fun p fault hall hp => h.call p op fault hop hall hp

lemma update (hf : ∀ s, KeepsDoc k s (f s)) :
    Spec allowed J (update f : DataM Unit) (fun _ => J) E K :=
  .update fun p hp => h.memory p (f p.durable) (hf p.durable) hp

lemma look (op) (hop : op.spares k = true) (hlook : ∀ s, effect op s = s) (R : DataLayer → Prop) :
    Upholds allowed (fun p => J p ∧ R p.durable) K (OfflineProtocol.storage op) := by
  apply storage_spec
  intro p fault hall hp
  have hsame : (p.after .effect op fault).durable = p.durable := by
    simp only [Part.after, hlook, ite_self]
  exact (h.call p op fault hop hall hp.1).and (by rw [hsame]; exact hp.2)

lemma readRecord {α : Type} (backend key) (f : DataBackend → α) (R : DataLayer → Prop) :
    Spec allowed (fun p => J p ∧ R p.durable) (readRecord backend key f)
      (fun a p => (J p ∧ R p.durable) ∧ a = f (p.durable.disk backend))
      (fun _ p => J p ∧ R p.durable) K :=
  (h.look _ rfl (fun _ => rfl) R).bind fun _ => .read fun _ hp => ⟨hp, rfl⟩

lemma listRecords {α : Type} {backend category} (f : DataBackend → α) (R : DataLayer → Prop) :
    Spec allowed (fun p => J p ∧ R p.durable) (listRecords backend category f)
      (fun a p => (J p ∧ R p.durable) ∧ a = f (p.durable.disk backend))
      (fun _ p => J p ∧ R p.durable) K :=
  (h.look _ rfl (fun _ => rfl) R).bind fun _ => .read fun _ hp => ⟨hp, rfl⟩

lemma purge_removed (host : DataHost) (backend key) (deltaKeys) (hφ : key = k → φ) : Spec allowed
      (fun p => J p ∧ p.durable.backend = backend ∧
        (φ → get p.durable.docs k = none ∧ ¬Unremoved p.durable.stored.docMeta k))
      (OfflineProtocol.purgeDocRecords host backend key deltaKeys)
      (fun _ p => J p ∧ p.durable.backend = backend ∧
        (φ → get p.durable.docs k = none ∧ ¬Unremoved p.durable.stored.docMeta k))
      (fun _ => J) K := by
  have hdel (key' : StateKey) (hkey : key = k ∨ key'.isOf k = false)
      (hmeta : ∀ key'', key' ≠ .docMeta key'') :
      Upholds allowed (fun p => J p ∧ p.durable.backend = backend ∧
        (φ → get p.durable.docs k = none ∧ ¬Unremoved p.durable.stored.docMeta k)) K
        (OfflineProtocol.storage (.delete backend key')) := by
    apply storage_spec
    rintro p fault hall ⟨hp, rfl, hgone⟩
    have hends : Ends J K fault (p.after .effect (.delete p.durable.backend key') fault) := by
      by_cases hof : key'.isOf k = true
      · have hk : φ := hφ (hkey.resolve_right (by rw [hof]; simp))
        exact h.purge p key' fault hof hall (hgone hk).1 (hgone hk).2 hp
      refine h.call p _ fault ?_ hall hp
      simp [StorageOp.spares, hof, hmeta]
    refine hends.and ⟨after_backend, fun hk => ?_⟩
    rw [after_docs, after_delete_docMeta hmeta]
    exact hgone hk
  have hof (key' : StateKey) (h' : key' = .doc key ∨ ∃ seq, key' = .delta key seq) :
      key = k ∨ key'.isOf k = false := by
    by_cases hk : key = k
    · exact .inl hk
    · rcases h' with rfl | ⟨seq, rfl⟩ <;> exact .inr (by simp [StateKey.isOf, hk])
  apply purgeDocRecords_spec
  · exact hdel (.doc key) (hof _ (.inl rfl)) (by simp)
  · exact h.look _ rfl (fun _ => rfl) fun s => s.backend = backend ∧
      (φ → get s.docs k = none ∧ ¬Unremoved s.stored.docMeta k)
  · exact fun seq => hdel (.delta key seq) (hof _ (.inr ⟨seq, rfl⟩)) (by simp)

lemma loadMetas (backend space) (keys : List DocKey) (record half : List DocName) : Spec allowed
      (fun p => J p ∧ p.durable.backend = backend ∧
        ∀ doc ∈ half, ¬Unremoved p.durable.stored.docMeta (space, doc))
      (loadMetas backend space keys record half) (fun r p => J p ∧ p.durable.backend = backend ∧
        ∀ doc ∈ r.2, ¬Unremoved p.durable.stored.docMeta (space, doc)) (fun _ => J) K := by
  induction keys generalizing record half with
  | nil => exact .pure fun _ => id
  | cons key keys ih =>
    unfold OfflineProtocol.loadMetas
    split
    · rename_i hspace
      have hread := h.readRecord backend (.docMeta key) (fun b => get b.docMeta key) fun s =>
          s.backend = backend ∧ ∀ doc ∈ half, ¬Unremoved s.stored.docMeta (space, doc)
      refine .bind (Q := fun r p => (J p ∧ p.durable.backend = backend ∧
          ∀ doc ∈ half, ¬Unremoved p.durable.stored.docMeta (space, doc)) ∧
          ∀ removal, r = .ok (some removal) → get p.durable.stored.docMeta key = some removal)
        (.attempt (hread.mono (fun _ => id) ?_ ?_ fun _ => id)) ?_
      · rintro a p ⟨hp, ha⟩
        refine ⟨hp, fun removal hr => ?_⟩
        injection hr with hr
        rw [← hr, stored, hp.2.1, ha]
      · rintro e p hp
        exact ⟨hp, nofun⟩
      intro r
      have hskip : Spec allowed (fun p => (J p ∧ p.durable.backend = backend ∧
          ∀ doc ∈ half, ¬Unremoved p.durable.stored.docMeta (space, doc)) ∧
          ∀ removal, r = .ok (some removal) → get p.durable.stored.docMeta key = some removal)
          (OfflineProtocol.loadMetas backend space keys record half)
          (fun r p => J p ∧ p.durable.backend = backend ∧
            ∀ doc ∈ r.2, ¬Unremoved p.durable.stored.docMeta (space, doc)) (fun _ => J) K :=
        (ih record half).pre fun _ hp => hp.1
      cases r with
      | error e => exact hskip
      | ok found =>
        cases found with
        | none => exact hskip
        | some removal =>
          -- The record is remembered, and takes the name out when it says so.
          refine .bind (Q := fun _ p => (J p ∧ p.durable.backend = backend ∧
              ∀ doc ∈ half, ¬Unremoved p.durable.stored.docMeta (space, doc)) ∧
              get p.durable.stored.docMeta key = some removal)
            (.update fun p hp => ?_) fun _ => ?_
          · have hmemo := h.memory p (.setMeta key removal p.durable)
              ⟨rfl, rfl, rfl, fun _ => id, fun _ => id, fun _ => id⟩ hp.1.1
            exact ⟨⟨hmemo, hp.1.2⟩, hp.2 removal rfl⟩
          split
          · rename_i hgone
            have hdead : removal.alive = false := by
              have := (Bool.and_eq_true _ _ ▸ hgone : _ ∧ _).1
              exact (Bool.not_eq_true' _).mp this
            refine (ih _ _).pre fun p hp => ⟨hp.1.1, hp.1.2.1, fun doc hdoc => ?_⟩
            rcases mem_append.1 hdoc with hdoc | hdoc
            · exact hp.1.2.2 doc hdoc
            intro hun
            have hkey : (space, doc) = key := by
              rw [mem_singleton.1 hdoc, ← hspace]
            rw [hkey] at hun
            exact absurd (hun removal hp.2) (by rw [hdead]; simp)
          · exact (ih record half).pre fun _ hp => hp.1
    · exact ih record half

lemma purgeEach {backend space} {docs} (hφ : ∀ doc ∈ docs, (space, doc) = k → φ) : Spec allowed
      (fun p => J p ∧ p.durable.backend = backend ∧
        (φ → get p.durable.docs k = none ∧ ¬Unremoved p.durable.stored.docMeta k))
      (purgeEach host backend space docs) (fun _ => J) (fun _ => J) K := by
  induction docs with
  | nil => exact .pure fun _ hp => hp.1
  | cons doc docs ih =>
    have hdoc := h.purge_removed host backend (space, doc) none (hφ doc (.head _))
    exact hdoc.bind fun _ => ih fun d hd => hφ d (mem_cons_of_mem doc hd)

lemma loadSpace {host : DataHost} {space : SpaceName} :
    Spec allowed J (loadSpace host space) (fun _ p => J p ∧ space ∈ p.durable.spaces)
      (fun _ => J) K := by
  refine .observe fun loaded => ?_
  split
  · rename_i hload
    exact .pure fun p hp => ⟨hp.1, of_decide_eq_true (hp.2.trans hload)⟩
  rename_i hnot
  -- Nothing of a space that is not loaded is open.
  have hclosed := h.pin (k.1 = space) none
  have hlisted {α} (backend) (category) (f : DataBackend → α) :
      Spec allowed (fun p => (J p ∧ (k.1 = space → get p.durable.docs k = none)) ∧
          p.durable.backend = backend) (attempt (OfflineProtocol.listRecords backend category f))
        (fun _ p => (J p ∧ (k.1 = space → get p.durable.docs k = none)) ∧
          p.durable.backend = backend) (fun _ => J) K :=
    (((hclosed.listRecords f fun s => s.backend = backend).post
      fun _ _ hp => hp.1)).attempt_keeps
  refine .bind (Q := fun backend p =>
      (J p ∧ (k.1 = space → get p.durable.docs k = none)) ∧ p.durable.backend = backend)
    (.read fun p hp => ⟨⟨hp.1, fun hk => ?_⟩, rfl⟩) fun backend => ?_
  · by_contra hopen
    have hmem : k ∈ p.durable.docs := by
      rw [← get_isSome_iff]
      exact Option.isSome_iff_ne_none.2 hopen
    have hspace := h.loaded p hp.1 hmem
    rw [hk] at hspace
    exact hnot (hp.2.symm.trans (decide_eq_true hspace))
  have hindex := (((hclosed.readRecord backend (.space space)
    (fun b => get b.spaces space) fun s => s.backend = backend).post
      fun _ _ hp => hp.1)).attempt_keeps (E := fun _ => J)
  refine hindex.bind fun indexed => (hlisted backend .docs _).bind fun compacted =>
    (hlisted backend .deltaLog _).bind fun logged =>
    (hlisted backend .docMeta _).bind fun removals => ?_
  have hmetas := hclosed.loadMetas backend space (removals.toOption.getD [])
    ((namesIn space (compacted.toOption.getD []) ++
      namesIn space ((logged.toOption.getD []).map Prod.fst)).foldl addName
        ((indexed.toOption.join).getD [])) []
  refine .bind (hmetas.mono (fun p hp => ⟨hp.1, hp.2, by simp⟩) (fun _ _ => id)
    (fun _ _ hp => hp.1) fun _ => id) fun r => ?_
  obtain ⟨record, half⟩ := r
  refine .bind (Q := fun _ p => (J p ∧ space ∈ p.durable.spaces) ∧
      p.durable.backend = backend ∧ ((∃ doc ∈ half, (space, doc) = k) →
        get p.durable.docs k = none ∧ ¬Unremoved p.durable.stored.docMeta k))
    (.update fun p hp => ?_) fun _ => ?_
  · refine ⟨⟨h.memory p _ ⟨rfl, rfl, rfl, fun s hs => ?_, fun hopen hn => ?_, fun _ => id⟩
      hp.1.1, ?_⟩, hp.2.1, ?_⟩
    · exact AList.mem_insert _ |>.mpr (.inr hs)
    · have hk : k.1 ≠ space := by
        intro hk
        rw [← get_isSome_iff, hp.1.2 hk] at hopen
        cases hopen
      show k.2 ∈ (get (p.durable.spaces.insert space record) k.1).getD []
      rw [get_insert_ne hk]
      exact hn
    · exact AList.mem_insert _ |>.mpr (.inl rfl)
    · rintro ⟨doc, hdoc, rfl⟩
      exact ⟨hp.1.2 rfl, hp.2.2 doc hdoc⟩
  · exact ((h.pinSpace space).purgeEach fun doc hdoc hk => ⟨doc, hdoc, hk⟩).raising
      (fun _ _ hp => hp.1)

end Isolates

structure Replays (eng : Engine) (b : DataBackend) (key : DocKey) (done : List ℕ) (o : Opening) :
    Prop where
  pool : o.doc.pool = b.compactedChanges key ∪ done.toFinset.biUnion (b.deltaChanges key)
  applied : o.doc.applied = ready eng.causality o.doc.pool
  fresh : o.doc.exported = ∅ ∧ o.doc.previousExported = none
  complete : o.historyComplete = true → o.doc.pool ⊆ o.doc.applied
  next : ∀ seq ∈ done, seq < o.nextSeq

structure LoadedFrom (eng : Engine) (b : DataBackend) (key : DocKey) (entry : LoadedDoc) :
    Prop where
  applied : entry.doc.applied = b.durable key eng
  exported : entry.doc.exported = entry.doc.applied
  previous : entry.doc.previousExported = none
  complete : entry.historyComplete = true → b.changes key ⊆ entry.doc.applied
  next : ∀ seq, (key, seq) ∈ b.deltaLog → seq < entry.nextSeq

namespace DataDoc
variable {eng : Engine} {doc : DataDoc} {blob : Blob}

lemma pool_afterImport : (doc.afterImport eng blob).pool = doc.pool ∪ blob.changes :=
  Finset.union_sdiff_of_subset ready_subset

end DataDoc

namespace Opening
variable {eng : Engine} {o : Opening} {blob : Blob}

/-- A record that applied leaves nothing waiting, when nothing was. -/
lemma take_complete (hap : o.doc.applied = ready eng.causality o.doc.pool)
    (hc : o.historyComplete = true → o.doc.pool ⊆ o.doc.applied)
    (h : (o.take eng blob).historyComplete = true) :
    (o.take eng blob).doc.pool ⊆ (o.take eng blob).doc.applied := by
  obtain ⟨hbefore, hblob⟩ : o.historyComplete = true ∧
      decide (o.doc.importOutcome eng blob = .applied) = true := by
    simpa [take] using h
  have hin : blob.changes ⊆ (o.doc.afterImport eng blob).applied := by
    by_contra hnot
    have : o.doc.importOutcome eng blob = .parked := if_neg hnot
    rw [this] at hblob
    simp at hblob
  show (o.doc.afterImport eng blob).pool ⊆ _
  rw [pool_afterImport]
  apply Finset.union_subset _ hin
  have hold := hc hbefore
  rw [hap] at hold
  exact hold.trans (ready_mono Finset.subset_union_left)

end Opening

namespace Replays
variable {eng : Engine} {key : DocKey} {o : Opening}

lemma start (eng b key) : Replays eng b key [] (Opening.start eng (get b.docs key)) := by
  have hempty : (⟨.new, 0, 0, 0, true⟩ : Opening).doc.pool = ∅ := rfl
  have hready : (⟨.new, 0, 0, 0, true⟩ : Opening).doc.applied =
      ready eng.causality (⟨.new, 0, 0, 0, true⟩ : Opening).doc.pool := rfl
  cases hb : get b.docs key with
  | none =>
    refine ⟨?_, rfl, ⟨rfl, rfl⟩, fun _ => subset_rfl, by simp⟩
    simp only [compactedChanges, hb]
    rfl
  | some blob =>
    refine ⟨?_, ?_, ⟨rfl, rfl⟩, Opening.take_complete hready fun _ => subset_rfl, by simp⟩
    · show (afterImport eng _ blob).pool = _
      rw [pool_afterImport, hempty]
      simp [compactedChanges, hb]
    show (afterImport eng _ blob).applied = ready _ (afterImport eng _ blob).pool
    rw [pool_afterImport]
    rfl

section
variable (h : Replays eng b key done o)
include h

lemma delta (hblob : get b.deltaLog (key, seq) = some blob) (logBytes replayed) :
    Replays eng b key (done ++ [seq]) { o.take eng blob with
        nextSeq := max o.nextSeq (seq + 1), logBytes := logBytes, replayed := replayed } := by
  have hchanged : b.deltaChanges key seq = blob.changes := by
    simp [deltaChanges, hblob]
  refine ⟨?_, ?_, h.fresh, Opening.take_complete h.applied h.complete, ?_⟩
  · show (o.doc.afterImport eng blob).pool = _
    rw [pool_afterImport, h.pool, toFinset_append, Finset.union_biUnion, Finset.union_assoc]
    simp [hchanged]
  · show (o.doc.afterImport eng blob).applied = ready _ (o.doc.afterImport eng blob).pool
    rw [pool_afterImport]
    rfl
  · exact forall_mem_append.2 ⟨fun n hn => lt_max_of_lt_left (h.next n hn),
      forall_mem_singleton.2 (lt_max_of_lt_right (Nat.lt_succ_self seq))⟩

lemma hole (hnone : get b.deltaLog (key, seq) = none) : Replays eng b key (done ++ [seq])
      { o with nextSeq := max o.nextSeq (seq + 1), historyComplete := false } := by
  have hchanged : b.deltaChanges key seq = ∅ := by
    simp [deltaChanges, hnone]
  refine ⟨?_, h.applied, h.fresh, fun hc => by simp at hc, ?_⟩
  · show o.doc.pool = _
    rw [h.pool, toFinset_append, Finset.union_biUnion]
    simp [hchanged]
  exact forall_mem_append.2 ⟨fun n hn => lt_max_of_lt_left (h.next n hn),
    forall_mem_singleton.2 (lt_max_of_lt_right (Nat.lt_succ_self seq))⟩

lemma loaded (hdone : ∀ seq, seq ∈ done ↔ (key, seq) ∈ b.deltaLog)
    {snapshot} : LoadedFrom eng b key (o.loaded eng snapshot) := by
  have hpool : o.doc.pool = b.changes key := by
    rw [h.pool, changes]
    congr 2
    ext seq
    rw [mem_toFinset, mem_toFinset, hdone, mem_sequences]
  refine ⟨?_, rfl, h.fresh.2, fun hc => ?_, fun seq hseq => h.next seq ((hdone seq).2 hseq)⟩
  · show o.doc.applied = _
    rw [h.applied, hpool]
    rfl
  rw [← hpool]
  exact h.complete hc

end

end Replays

lemma mem_sequencesOf {host : DataHost} {b : DataBackend} :
    seq ∈ sequencesOf key (host.listing b.deltaLog.keys) ↔ (key, seq) ∈ b.deltaLog := by
  rw [sequencesOf, mem_insertionSort, AList.mem_keys, ← (host.listing_perm _).mem_iff]
  simp only [mem_map, mem_filter, decide_eq_true_eq]
  constructor
  · rintro ⟨⟨k, n⟩, ⟨hk, rfl⟩, rfl⟩
    exact hk
  intro hk
  exact ⟨(key, seq), ⟨hk, rfl⟩, rfl⟩

namespace Isolates
variable {allowed : StorageOp → Fault → Prop} {k : DocKey} {host : DataHost}
  {J K : Part DataLayer StorageOp → Prop} (h : Isolates allowed k J K)
include h

lemma replayDeltas (host : DataHost) (backend) (b : DataBackend) (key seqs done) (o) :
    Spec allowed (fun p => (J p ∧ p.durable.disk backend = b) ∧ Replays host.engine b key done o)
      (replayDeltas host backend key seqs o)
      (fun o' p => (J p ∧ p.durable.disk backend = b) ∧ Replays host.engine b key (done ++ seqs) o')
      (fun _ => J) K := by
  induction seqs generalizing done o with
  | nil =>
    refine .pure fun p hp => ?_
    rw [append_nil]
    exact hp
  | cons seq seqs ih =>
    have hread := h.readRecord backend (.delta key seq)
      (fun b => get b.deltaLog (key, seq)) fun s =>
        s.disk backend = b ∧ Replays host.engine b key done o
    have hstep (o') : Spec allowed
        (fun p => (J p ∧ p.durable.disk backend = b) ∧ Replays host.engine b key (done ++ [seq]) o')
        (OfflineProtocol.replayDeltas host backend key seqs o')
        (fun o' p => (J p ∧ p.durable.disk backend = b) ∧
          Replays host.engine b key (done ++ seq :: seqs) o') (fun _ => J) K := by
      have := ih (done ++ [seq]) o'
      rwa [append_assoc] at this
    refine .bind (hread.mono (fun p hp => ⟨hp.1.1, hp.1.2, hp.2⟩) (fun _ _ => id)
      (fun _ _ hp => hp.1) fun _ => id) fun found => ?_
    cases found with
    | some blob =>
      refine (hstep _).pre fun p hp => ⟨⟨hp.1.1, hp.1.2.1⟩, ?_⟩
      have hfound := hp.2.symm
      rw [hp.1.2.1] at hfound
      exact hp.1.2.2.delta hfound _ _
    | none =>
      refine (hstep _).pre fun p hp => ⟨⟨hp.1.1, hp.1.2.1⟩, ?_⟩
      have hfound := hp.2.symm
      rw [hp.1.2.1] at hfound
      exact hp.1.2.2.hole hfound

lemma listDeltaLog (host)
    (hlisted : ∀ backend f, ¬allowed (.list backend .deltaLog) (.failed f)) (backend)
    (R : DataLayer → Prop) :
    Spec allowed (fun p => J p ∧ R p.durable) (listDeltaLog host backend)
      (fun keys p => (J p ∧ R p.durable) ∧
        keys = host.listing (p.durable.disk backend).deltaLog.keys) (fun _ _ => False) K := by
  have hop : Spec allowed (fun p => J p ∧ R p.durable)
      (OfflineProtocol.storage (.list backend .deltaLog)) (fun _ p => J p ∧ R p.durable)
      (fun _ _ => False) K := by
    refine .operate (fun p hall hp => ?_) (fun p f hall _ => absurd hall (hlisted backend f))
      fun p f hall hp => h.call p _ (.cut f) rfl hall hp.1
    exact ⟨h.call p _ .done rfl hall hp.1, hp.2⟩
  exact hop.bind fun _ => .read fun _ hp => ⟨hp, rfl⟩

lemma openDoc (hlisted : ∀ backend f, ¬allowed (.list backend .deltaLog) (.failed f))
    (key : DocKey) (henter : ∀ p entry, J p → (key = k → get p.durable.docs k = none) →
      key.1 ∈ p.durable.spaces → LoadedFrom host.engine p.durable.stored key entry →
      J ⟨p.durable.enter key entry, p.log⟩) :
    Spec allowed J (openDoc host key) (fun _ p => J p ∧ key ∈ p.durable.docs) (fun _ => J) K := by
  refine .observe fun isOpen => ?_
  split
  · rename_i hopen
    exact .pure fun p hp => ⟨hp.1, of_decide_eq_true (hp.2.trans hopen)⟩
  rename_i hnot
  have hclosed := h.pin (key = k) none
  have hshut : ∀ p, J p ∧ decide (key ∈ p.durable.docs) = isOpen →
      J p ∧ (key = k → get p.durable.docs k = none) := by
    rintro p ⟨hp, hopen⟩
    refine ⟨hp, fun hk => ?_⟩
    rw [get_eq_none_iff, ← hk]
    exact fun hmem => hnot (hopen.symm.trans (decide_eq_true hmem))
  refine .bind ((hclosed.loadSpace).mono hshut (fun _ _ => id)
    (fun _ _ hp => hp.1) fun _ => id) fun _ => ?_
  have hload := hclosed.pinSpace key.1
  refine .peek fun removed => ?_
  split
  · exact .raise fun p hp => hp.1.1
  refine .bind (Q := fun backend p => ∃ b : DataBackend,
      ((J p ∧ (key = k → get p.durable.docs k = none)) ∧ key.1 ∈ p.durable.spaces) ∧
      p.durable.backend = backend ∧ p.durable.disk backend = b)
    (.read fun p hp => ⟨_, hp, rfl, rfl⟩) fun backend => .named fun b => ?_
  have hfixed := hload.pinBackend backend
  refine .bind (((hfixed.readRecord backend (.doc key)
    (fun b => get b.docs key) fun s => s.disk backend = b).mono
      (fun p hp => ⟨⟨hp.1, hp.2.1⟩, hp.2.2⟩) (fun _ _ => id) (fun _ _ hp => hp.1.1.1.1)
      fun _ => id)) fun snapshot => ?_
  have hlist := hfixed.listDeltaLog host hlisted backend fun s =>
    s.disk backend = b ∧ snapshot = get b.docs key
  refine .bind (Q := fun listed p => ((((J p ∧ (key = k → get p.durable.docs k = none)) ∧
      key.1 ∈ p.durable.spaces) ∧ p.durable.backend = backend) ∧
      p.durable.disk backend = b) ∧ Replays host.engine b key [] (.start host.engine snapshot)
      ∧ listed = .ok (host.listing b.deltaLog.keys))
    (.attempt (hlist.mono (fun p hp => ⟨hp.1.1, hp.1.2, ?_⟩) (fun keys p hp => ?_)
      (fun _ _ hp => hp.elim) fun _ => id)) fun listed => ?_
  · rw [hp.2, hp.1.2]
  · refine ⟨⟨hp.1.1, hp.1.2.1⟩, ?_, ?_⟩
    · rw [hp.1.2.2]
      exact .start host.engine b key
    · rw [hp.2, hp.1.2.1]
  have hreplaced := (hfixed.pinFact (listed = .ok (host.listing b.deltaLog.keys))).replayDeltas
    host backend b key (sequencesOf key (listed.toOption.getD [])) [] (.start host.engine snapshot)
  refine .bind (hreplaced.mono (fun p hp => ⟨⟨⟨hp.1.1, hp.2.2⟩, hp.1.2⟩, hp.2.1⟩)
    (fun _ _ => id) (fun _ _ hp => hp.1.1.1.1) fun _ => id) fun o => ?_
  refine .update fun p hp => ⟨?_, AList.mem_insert _ |>.mpr (.inl rfl)⟩
  obtain ⟨⟨⟨⟨⟨⟨hJ, hnone⟩, hspace⟩, hback⟩, hok⟩, hdisk⟩, hrepl⟩ := hp
  refine henter p _ hJ hnone hspace ?_
  have hstored : p.durable.stored = b := by rw [stored, hback, hdisk]
  rw [hstored]
  refine hrepl.loaded (fun seq => ?_)
  rw [nil_append, hok]
  exact mem_sequencesOf

end Isolates

end OfflineProtocol
