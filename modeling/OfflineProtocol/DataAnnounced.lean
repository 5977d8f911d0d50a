import OfflineProtocol.DataAround
import OfflineProtocol.DataSync

/-! An edit that storage holds was pushed to the peer, or the peer was offered the
document's version after the edit was stored. -/
namespace OfflineProtocol
open KeyedTable FaultySchedule CausalPool DataBackend Finset DataLayer
open Interruption (Fault Part Outcome)

def SentFrame.tells (k : DocKey) (c : Change) (frame : SentFrame) : Prop :=
  frame.space = k.1 ∧
    ((∃ blob, frame.body = .delta k.2 (some blob) ∧ c ∈ blob.changes) ∨
      (k.2 ∈ frame.body.offered ∧ c ∈ frame.held.changes k))

def DataLayer.Told (s : DataLayer) (k : DocKey) (c : Change) : Prop :=
  ∃ frame ∈ s.sent, frame.tells k c

/-- What is followed about one document: edits made here, edits known to be told,
and changes that are stored and still have to be told. -/
structure News where
  k : DocKey
  edits : Finset Change
  known : Finset Change
  due : Finset Change

namespace News
variable (n : News)

def owe (due : Finset Change) : News := { n with due := due }

structure Keeps (p : Part DataLayer StorageOp) : Prop where
  loaded : n.k ∈ p.durable.docs → n.k.1 ∈ p.durable.spaces
  named : n.k ∈ p.durable.docs → n.k.2 ∈ p.durable.names n.k.1
  stored : ∀ id, ∀ c ∈ n.edits, c ∈ (p.durable.disk id).changes n.k →
    p.durable.Told n.k c ∨ c ∈ n.due
  due : n.due ⊆ p.durable.stored.changes n.k
  known : ∀ c ∈ n.known, p.durable.Told n.k c

structure Fits (eng : Engine) (s : DataLayer) (entry : LoadedDoc) : Prop where
  closed : Closed eng.causality entry.doc.applied
  edits : n.edits ⊆ entry.doc.applied
  known : n.known ⊆ entry.doc.applied
  due : n.due ⊆ entry.doc.applied
  marked : ∀ c ∈ n.edits, c ∈ entry.doc.exported → s.Told n.k c ∨ c ∈ n.due

structure Holds (eng : Engine) (p : Part DataLayer StorageOp) : Prop where
  keeps : n.Keeps p
  absent : get p.durable.docs n.k = none → n.edits = ∅ ∧ n.known = ∅ ∧ n.due = ∅
  fits : ∀ entry, get p.durable.docs n.k = some entry → n.Fits eng p.durable entry

abbrev OpenAt (eng : Engine) (entry : LoadedDoc) (p : Part DataLayer StorageOp) : Prop :=
  n.Holds eng p ∧ get p.durable.docs n.k = some entry

structure Awaits (eng : Engine) (entry copy : LoadedDoc) (p : Part DataLayer StorageOp) :
    Prop where
  keeps : n.Keeps p
  copy : get p.durable.docs n.k = some copy
  fits : n.Fits eng p.durable entry

variable {n} {eng : Engine} {p : Part DataLayer StorageOp} {s : DataLayer}

lemma Told.mono {s' : DataLayer} {k}
    (hsent : ∀ frame ∈ s.sent, frame ∈ s'.sent) (h : s.Told k c) : s'.Told k c := by
  obtain ⟨frame, hin, htells⟩ := h
  exact ⟨frame, hsent frame hin, htells⟩

lemma Fits.mono
    (hsent : ∀ frame ∈ s.sent, frame ∈ s'.sent) (h : n.Fits eng s entry) : n.Fits eng s' entry :=
  ⟨h.closed, h.edits, h.known, h.due, fun c hc he =>
    (h.marked c hc he).imp (Told.mono hsent) id⟩

lemma Fits.congr (h : n.Fits eng s entry)
    (hap : copy.doc.applied = entry.doc.applied) (hex : copy.doc.exported = entry.doc.exported) :
    n.Fits eng s copy := by
  refine ⟨hap ▸ h.closed, hap ▸ h.edits, hap ▸ h.known, hap ▸ h.due, ?_⟩
  rw [hex]
  exact h.marked

lemma Holds.awaits (h : n.Holds eng p)
    (he : get p.durable.docs n.k = some entry) : n.Awaits eng entry entry p :=
  ⟨h.keeps, he, h.fits entry he⟩

lemma Awaits.holds (h : n.Awaits eng entry entry p) : n.Holds eng p where
  keeps := h.keeps
  absent hnone := by
    rw [h.copy] at hnone
    cases hnone
  fits entry' he := by
    rw [h.copy] at he
    cases he
    exact h.fits

lemma Awaits.replace {entry copy entry' copy'} (h : n.Awaits eng entry copy p)
    (hap : entry'.doc.applied = entry.doc.applied) (hex : entry'.doc.exported = entry.doc.exported) :
    n.Awaits eng entry' copy' ⟨p.durable.setDoc n.k copy', p.log⟩ where
  keeps := ⟨fun _ => h.keeps.loaded (mem_of_get h.copy), fun _ => h.keeps.named (mem_of_get h.copy),
    h.keeps.stored, h.keeps.due, h.keeps.known⟩
  copy := get_insert_self
  fits := by
    have hsent : ∀ frame ∈ p.durable.sent, frame ∈ (p.durable.setDoc n.k copy').sent :=
      fun _ => id
    exact .mono hsent (h.fits.congr hap hex)

lemma holds_absent (hnone : get p.durable.docs n.k = none) (hedits : n.edits = ∅)
    (hknown : n.known = ∅) (hdue : n.due = ∅) : n.Holds eng p where
  keeps := by
    have hnot : n.k ∉ p.durable.docs := get_eq_none_iff.1 hnone
    refine ⟨fun hk => absurd hk hnot, fun hk => absurd hk hnot, ?_, ?_, ?_⟩
    · rw [hedits]
      simp
    · rw [hdue]
      exact empty_subset _
    rw [hknown]
    simp
  absent _ := ⟨hedits, hknown, hdue⟩
  fits entry he := by
    rw [hnone] at he
    cases he

/-- An operation leaves what is in memory and what was sent; only the disk may change. -/
lemma Keeps.after (h : n.Keeps p) {op fault due}
    (hstored : ∀ id, ∀ c ∈ n.edits, c ∈ ((p.after effect op fault).durable.disk id).changes n.k →
      p.durable.Told n.k c ∨ c ∈ due)
    (hdue : due ⊆ (p.after effect op fault).durable.stored.changes n.k) :
    (n.owe due).Keeps (p.after effect op fault) := by
  have htold {c} : p.durable.Told n.k c → (p.after .effect op fault).durable.Told n.k c :=
    Told.mono fun frame hf => by
      rw [after_sent]
      exact hf
  refine ⟨?_, ?_, fun id c hc hin => (hstored id c hc hin).imp htold fun hd => hd, hdue,
    fun c hc => htold (h.known c hc)⟩
  · rw [after_docs, after_spaces]
    exact h.loaded
  · rw [after_docs, after_names]
    exact h.named

lemma Keeps.spared (h : n.Keeps p) {op} (hop : op.touches n.k = false)
    {fault : Fault} : n.Keeps (p.after effect op fault) := by
  have hsame (id : ℕ) : ((p.after .effect op fault).durable.disk id).changes n.k =
      (p.durable.disk id).changes n.k := by
    rw [after_disk]
    split
    · exact apply_changes hop
    · rfl
  refine h.after (fun id c hc hin => h.stored id c hc (hsame id ▸ hin)) ?_
  rw [DataLayer.stored, after_backend, hsame]
  exact h.due

lemma Holds.spared (h : n.Holds eng p) (hop : op.touches n.k = false)
    {fault : Fault} : n.Holds eng (p.after effect op fault) where
  keeps := h.keeps.spared hop
  absent := by
    rw [after_docs]
    exact h.absent
  fits entry he := by
    rw [after_docs] at he
    refine (h.fits entry he).mono fun frame hf => ?_
    rw [after_sent]
    exact hf

lemma Holds.memory (h : n.Holds eng p) (hs : KeepsDoc n.k p.durable s) :
    n.Holds eng ⟨s, p.log⟩ := by
  have hopen : n.k ∈ s.docs → n.k ∈ p.durable.docs := by
    rw [← get_isSome_iff, ← get_isSome_iff, hs.doc]
    exact id
  refine ⟨⟨fun hk => hs.spaces _ (h.keeps.loaded (hopen hk)),
    fun hk => hs.named (hopen hk) (h.keeps.named (hopen hk)), fun id c hc hin => ?_, ?_,
    fun c hc => Told.mono hs.sent (h.keeps.known c hc)⟩, fun hnone => ?_, fun entry he => ?_⟩
  · have hin' : c ∈ (s.disk id).changes n.k := hin
    rw [hs.disk] at hin'
    exact (h.keeps.stored id c hc hin').imp (Told.mono hs.sent) (fun hd => hd)
  · show n.due ⊆ (s.disk s.backend).changes n.k
    rw [hs.disk, hs.backend]
    exact h.keeps.due
  · exact h.absent (hs.doc.symm.trans hnone)
  · exact (h.fits entry (hs.doc.symm.trans he)).mono hs.sent

lemma Holds.modify (h : n.Holds eng p)
    (hf : ∀ entry, n.Fits eng p.durable entry → n.Fits eng p.durable (f entry)) :
    n.Holds eng ⟨p.durable.modifyDoc n.k f, p.log⟩ := by
  have hmem : n.k ∈ (p.durable.modifyDoc n.k f).docs → n.k ∈ p.durable.docs := by
    rw [← get_isSome_iff, ← get_isSome_iff, get_modifyDoc, Option.isSome_map]
    exact id
  refine ⟨⟨fun hk => h.keeps.loaded (hmem hk), fun hk => h.keeps.named (hmem hk),
    h.keeps.stored, h.keeps.due, h.keeps.known⟩, fun hnone => ?_, fun entry he => ?_⟩
  · exact h.absent (Option.map_eq_none_iff.1 ((get_modifyDoc f).symm.trans hnone))
  · obtain ⟨old, hold, rfl⟩ := Option.map_eq_some_iff.1 ((get_modifyDoc f).symm.trans he)
    have hsent : ∀ frame ∈ p.durable.sent, frame ∈ (p.durable.modifyDoc n.k f).sent :=
      fun _ => id
    exact .mono hsent (hf old (h.fits old hold))

lemma holds_enter (h : n.Holds eng p) (hnone : get p.durable.docs n.k = none)
    (hspace : n.k.1 ∈ p.durable.spaces) (hload : LoadedFrom eng p.durable.stored n.k entry) :
    n.Holds eng ⟨p.durable.enter n.k entry, p.log⟩ := by
  obtain ⟨hedits, hknown, hdue⟩ := h.absent hnone
  have hnamed : n.k.2 ∈ (p.durable.enter n.k entry).names n.k.1 := by
    show n.k.2 ∈ (get (modify p.durable.spaces n.k.1 _) n.k.1).getD []
    rw [get_modify, if_pos rfl]
    obtain ⟨docs, hdocs⟩ := Option.isSome_iff_exists.1 (get_isSome_iff.2 hspace)
    rw [hdocs]
    exact mem_addName.2 (.inl rfl)
  suffices hnext : n.Awaits eng entry entry ⟨p.durable.enter n.k entry, p.log⟩ from hnext.holds
  refine ⟨⟨fun _ => mem_modify.2 hspace, fun _ => hnamed, h.keeps.stored, h.keeps.due,
    h.keeps.known⟩, get_insert_self, ?_⟩
  refine ⟨hload.applied ▸ ready_closed, ?_, ?_, ?_, ?_⟩
  · rw [hedits]
    exact empty_subset _
  · rw [hknown]
    exact empty_subset _
  · rw [hdue]
    exact empty_subset _
  rw [hedits]
  simp

structure Calm (allowed : StorageOp → Fault → Prop) : Prop where
  listed : ∀ backend f, ¬allowed (.list backend .deltaLog) (.failed f)
  uncut : ∀ op f, ¬allowed op (.cut f)
  unapplied : ∀ op, ¬allowed op (.failed true)

lemma Calm.ends (hcalm : Calm allowed) (hall : allowed op fault) (h : J p) :
    Ends J (fun _ => False) fault p := by
  cases fault with
  | done => exact h
  | failed f => exact h
  | cut f => exact hcalm.uncut op f hall

lemma surrounds (hcalm : Calm allowed) (n : News) (host : DataHost) :
    Surrounds allowed host n.k (n.Holds host.engine) fun _ => False where
  loaded p hp := hp.keeps.loaded
  call p op fault hop hall hp := by
    exact hcalm.ends hall (hp.spared (StorageOp.touches_of_spares hop))
  memory p s hs hp := hp.memory hs
  purge p key fault _ hall hnone _ hp := by
    obtain ⟨hedits, hknown, hdue⟩ := hp.absent hnone
    have hnext : n.Holds host.engine (p.after .effect (.delete p.durable.backend key) fault) := by
      apply holds_absent _ hedits hknown hdue
      rw [after_docs]
      exact hnone
    exact hcalm.ends hall hnext
  listed := hcalm.listed
  opens p entry hp hnone hspace hload := holds_enter hp hnone hspace hload

lemma Holds.tell (h : n.Holds eng p)
    (htells : ∀ c ∈ n.due, SentFrame.tells n.k c ⟨n.k.1, body, p.durable.stored⟩) :
    (n.owe ∅).Holds eng
      ⟨{ p.durable with sent := p.durable.sent ++ [⟨n.k.1, body, p.durable.stored⟩] }, p.log⟩ := by
  have hnow {c} (hc : p.durable.Told n.k c ∨ c ∈ n.due) : DataLayer.Told { p.durable with
        sent := p.durable.sent ++ [⟨n.k.1, body, p.durable.stored⟩] } n.k c ∨ c ∈ (∅ : Finset Change) := by
    rcases hc with ⟨frame, hin, hf⟩ | hc
    · exact .inl ⟨frame, List.mem_append_left _ hin, hf⟩
    · exact .inl ⟨_, List.mem_append_right _ (.head _), htells c hc⟩
  refine ⟨⟨h.keeps.loaded, h.keeps.named, fun id c hc hin => hnow (h.keeps.stored id c hc hin),
    empty_subset _, fun c hc => ?_⟩, fun hnone => ?_, fun entry he => ?_⟩
  · exact (hnow (.inl (h.keeps.known c hc))).resolve_right (by simp)
  · exact ⟨(h.absent hnone).1, (h.absent hnone).2.1, rfl⟩
  have hfits := h.fits entry he
  exact ⟨hfits.closed, hfits.edits, hfits.known, empty_subset _,
    fun c hc hex => hnow (hfits.marked c hc hex)⟩

section
variable {allowed : StorageOp → Fault → Prop} (hcalm : Calm allowed) (n : News) (host : DataHost)
  {entry : LoadedDoc}
include hcalm
omit hcalm in
lemma sendSyncFrame_tells (htells : ∀ p, n.Holds host.engine p →
      ∀ c ∈ n.due, SentFrame.tells n.k c ⟨n.k.1, body, p.durable.stored⟩) :
    Spec allowed (n.OpenAt host.engine entry) ((offerOps host n.k.1).sendSyncFrame body)
      (fun _ => (n.owe ∅).OpenAt host.engine entry) E fun _ => False :=
  .update (f := fun s : DataLayer => { s with sent := s.sent ++ [⟨n.k.1, body, s.stored⟩] })
    fun p hp => ⟨hp.1.tell (htells p hp.1), hp.2⟩

omit hcalm in
lemma dataDocVersion_open : Spec allowed (n.OpenAt host.engine entry) (dataDocVersion host n.k)
      (fun _ => n.OpenAt host.engine entry) E
      fun _ => False := by
  refine .bind (Q := fun _ => n.OpenAt host.engine entry)
    (openDoc_open fun p hp => mem_of_get hp.2) fun _ => ?_
  exact .consult (fun _ hp => hp.2) .skip

lemma versionsOf_names {docs} :
    Spec allowed (n.OpenAt host.engine entry) (versionsOf host n.k.1 docs)
      (fun versions p => n.OpenAt host.engine entry p ∧
        (n.k.2 ∈ docs → ∃ version, (n.k.2, version) ∈ versions)) E fun _ => False := by
  have hsur := (n.surrounds hcalm host).holding entry
  induction docs with
  | nil => exact .pure fun p hp => ⟨hp, by simp⟩
  | cons doc docs ih =>
    refine .bind (Q := fun version p => n.OpenAt host.engine entry p ∧
        (doc = n.k.2 → ∃ v, version = .ok v))
      ?_ fun version => ?_
    · by_cases hdoc : doc = n.k.2
      · rw [show (n.k.1, doc) = n.k from by rw [hdoc]]
        exact .attempt ((dataDocVersion_open n host).post fun v _ hp => ⟨hp, fun _ => ⟨v, rfl⟩⟩)
      refine .attempt ((hsur.readDoc DataDoc.applied).mono (fun _ => id)
        (fun _ _ hp => ⟨hp, fun h => absurd h hdoc⟩) (fun _ _ hp => ⟨hp, fun h => absurd h hdoc⟩)
        fun _ => id)
    refine .given (φ := doc = n.k.2 → ∃ v, version = .ok v) (fun _ hp => hp.2) fun hok => ?_
    refine .bind (ih.pre fun _ hp => hp.1) fun rest => ?_
    cases version with
    | ok v =>
      refine .pure fun p hp => ⟨hp.1, fun hin => ?_⟩
      rcases List.mem_cons.1 hin with heq | hin
      · exact ⟨v, by rw [heq]; exact (.head _)⟩
      obtain ⟨v', hv'⟩ := hp.2 hin
      exact ⟨v', List.mem_cons_of_mem _ hv'⟩
    | error e =>
      refine .pure fun p hp => ⟨hp.1, fun hin => ?_⟩
      rcases List.mem_cons.1 hin with heq | hin
      · obtain ⟨v, hv⟩ := hok heq.symm
        cases hv
      · exact hp.2 hin

lemma dataSyncVersions_names :
    Spec allowed (n.OpenAt host.engine entry) (dataSyncVersions host n.k.1)
      (fun versions p => n.OpenAt host.engine entry p ∧
        ∃ version, (n.k.2, version) ∈ versions) E fun _ => False := by
  refine .bind (Q := fun docs p => n.OpenAt host.engine entry p ∧ n.k.2 ∈ docs) ?_ fun docs => ?_
  · refine .bind (Q := fun _ => n.OpenAt host.engine entry)
      (loadSpace_loaded fun p hp => hp.1.keeps.loaded (mem_of_get hp.2)) fun _ => ?_
    exact .read fun p hp => ⟨hp, hp.1.keeps.named (mem_of_get hp.2)⟩
  refine .given (φ := n.k.2 ∈ docs) (fun _ hp => hp.2) fun hin => ?_
  exact (versionsOf_names hcalm n host).conseq (fun _ hp => hp.1)
    (fun _ _ hp => ⟨hp.1, hp.2 hin⟩)

lemma sendBodies_tells (hnames : ∃ body ∈ bodies, n.k.2 ∈ body.offered) :
    Spec allowed (n.OpenAt host.engine entry) ((offerOps host n.k.1).sendBodies bodies)
      (fun _ => (n.owe ∅).OpenAt host.engine entry) E fun _ => False := by
  induction bodies with
  | nil => simp at hnames
  | cons body bodies ih =>
    by_cases hbody : n.k.2 ∈ body.offered
    · refine .bind (sendSyncFrame_tells n host fun p hp c hc =>
        ⟨rfl, .inr ⟨hbody, hp.keeps.due hc⟩⟩) fun _ => ?_
      exact (((n.owe ∅).surrounds hcalm host).holding entry).sendBodies n.k.1
    refine .bind (((n.surrounds hcalm host).holding entry).sendSyncFrame n.k.1) fun _ => ih ?_
    obtain ⟨body', hin, hoff⟩ := hnames
    rcases List.mem_cons.1 hin with rfl | hin
    · exact absurd hoff hbody
    · exact ⟨body', hin, hoff⟩

lemma offerVersions_tells :
    Spec allowed (n.OpenAt host.engine entry) (offerOps host n.k.1).offerVersions
      (fun _ => (n.owe ∅).OpenAt host.engine entry) E fun _ => False := by
  have hsur := (n.surrounds hcalm host).holding entry
  refine .bind (Q := fun versions p => n.OpenAt host.engine entry p ∧
      ∃ docs version, versions = some docs ∧ (n.k.2, version) ∈ docs) ?_ fun versions => ?_
  · refine .bind (Q := fun versions p => n.OpenAt host.engine entry p ∧
        ∃ docs version, versions = Except.ok docs ∧ (n.k.2, version) ∈ docs)
      (.attempt ((dataSyncVersions_names hcalm n host).post fun docs p hp =>
        ⟨hp.1, docs, hp.2.choose, rfl, hp.2.choose_spec⟩)) fun versions => .pure fun p hp => ?_
    obtain ⟨hp, docs, version, rfl, hin⟩ := hp
    exact ⟨hp, docs, version, rfl, hin⟩
  · refine .given (φ := ∃ docs version, versions = some docs ∧ (n.k.2, version) ∈ docs)
      (fun _ hp => hp.2) fun hdocs => ?_
    obtain ⟨docs, version, rfl, hin⟩ := hdocs
    refine .bind ((hsur.tombstonesFor n.k.1).pre fun _ hp => hp.1) fun gone => ?_
    refine .bind (Surrounds.interestFor n.k.1) fun want => ?_
    exact sendBodies_tells hcalm n host (offered_versionBodies hin)

lemma nudgeDataSync_tells (hactive : host.replicates n.k.1 = true) :
    Spec allowed (n.OpenAt host.engine entry) ((offerOps host n.k.1).nudgeDataSync false)
      (fun _ => (n.owe ∅).OpenAt host.engine entry) E fun _ => False := by
  have hchan : (offerOps host n.k.1).spaceChannel false = true := hactive
  rw [OfferOps.nudgeDataSync, if_pos hchan]
  exact offerVersions_tells hcalm n host

lemma announceCommit_tells (hactive : host.replicates n.k.1 = true)
    (hdelta : n.due ⊆ delta.changes) :
    Spec allowed (n.OpenAt host.engine entry) (announceCommit host n.k false delta oversized)
      (fun _ => (n.owe ∅).OpenAt host.engine entry) E fun _ => False := by
  have hchan : (offerOps host n.k.1).spaceChannel false = true := hactive
  unfold announceCommit
  split
  · exact nudgeDataSync_tells hcalm n host hactive
  rw [OfferOps.pushDataDelta, if_pos hchan]
  refine .bind (((n.surrounds hcalm host).holding entry).armDataSyncSettle n.k.1 n.k.2) fun _ => ?_
  unfold OfferOps.sendDelta
  split
  · exact nudgeDataSync_tells hcalm n host hactive
  · exact sendSyncFrame_tells n host fun p hp c hc => ⟨rfl, .inl ⟨delta, rfl, hdelta hc⟩⟩

end

lemma Keeps.written (h : n.Keeps p) (record) {due} (hsub : n.due ⊆ due)
    (hrec : ∀ c ∈ n.edits, c ∈ record.changes → p.durable.Told n.k c ∨ c ∈ due)
    (hdue : due ⊆ (p.durable.stored.put record).changes n.k) :
    (n.owe due).Keeps (p.after effect (.write p.durable.backend record) .done) := by
  refine h.after (fun id c hc hin => ?_) ?_
  · by_cases hid : id = p.durable.backend
    · subst hid
      rw [after_write _ _ _ rfl] at hin
      rcases mem_union.1 (put_subset record hin) with hold | hnew
      · exact (h.stored _ c hc hold).imp_right fun hd => hsub hd
      · exact hrec c hc hnew
    · rw [after_disk, if_pos (show Fault.done.applied = true from rfl), apply,
        if_neg (Ne.symm hid)] at hin
      exact (h.stored id c hc hin).imp_right fun hd => hsub hd
  · rw [DataLayer.stored, after_backend, after_write _ _ _ rfl]
    exact hdue

lemma Keeps.unapplied (h : n.Keeps p) {op} : n.Keeps (p.after effect op (.failed false)) :=
  ⟨h.loaded, h.named, h.stored, h.due, h.known⟩

lemma Awaits.unapplied {entry copy} (h : n.Awaits eng entry copy p) {op} :
    n.Awaits eng entry copy (p.after effect op (.failed false)) :=
  ⟨h.keeps.unapplied, h.copy, ⟨h.fits.closed, h.fits.edits, h.fits.known, h.fits.due,
    h.fits.marked⟩⟩

lemma Keeps.removed (h : n.Keeps p) {key} (fault)
    (hdue : n.due ⊆ (p.durable.stored.remove key).changes n.k) :
    n.Keeps (p.after effect (.delete p.durable.backend key) fault) := by
  have hdisk (id : ℕ) : ((p.after .effect (.delete p.durable.backend key)
      fault).durable.disk id).changes n.k ⊆ (p.durable.disk id).changes n.k := by
    rw [after_disk]
    split
    · unfold apply
      dsimp only
      split
      · exact remove_subset
      · exact subset_rfl
    · exact subset_rfl
  refine h.after (fun id c hc hin => h.stored id c hc (hdisk id hin)) ?_
  rw [DataLayer.stored, after_backend, after_disk]
  split
  · rw [apply, if_pos rfl]
    exact hdue
  · exact h.due

def DocWriteFails (allowed : StorageOp → Fault → Prop) (k : DocKey) : Prop :=
  ∃ id blob f, allowed (.write id (.doc k blob)) (.failed f)

def Drained (k : DocKey) (p : Part DataLayer StorageOp) : Prop :=
  ∃ entry, get p.durable.docs k = some entry ∧ entry.doc.applied ⊆ entry.doc.exported

section
variable {allowed : StorageOp → Fault → Prop} (hcalm : Calm allowed) (n : News) (host : DataHost)
include hcalm

def Folded (n : News) (eng : Engine) (copy : LoadedDoc) (p : Part DataLayer StorageOp) : Prop :=
  n.Awaits eng copy copy p ∧ n.due ⊆ p.durable.stored.compactedChanges n.k

lemma folded_drop {copy backend} :
    Spec allowed (fun p => n.Folded host.engine copy p ∧ p.durable.backend = backend)
      (dropDeltaLog host backend n.k)
      (fun _ p => n.Folded host.engine copy p ∧ p.durable.backend = backend) E fun _ => False := by
  have hlook : Spec allowed (fun p => n.Folded host.engine copy p ∧ p.durable.backend = backend)
      (listDeltaLog host backend)
      (fun _ p => n.Folded host.engine copy p ∧ p.durable.backend = backend)
      (fun _ p => n.Folded host.engine copy p ∧ p.durable.backend = backend) fun _ => False := by
    have hlist := ((n.surrounds hcalm host).holding copy).look (.list backend .deltaLog) rfl
      (fun _ => rfl) fun s => n.due ⊆ s.stored.compactedChanges n.k ∧ s.backend = backend
    refine .bind (hlist.mono (fun p hp => ⟨⟨hp.1.1.holds, hp.1.1.copy⟩, hp.1.2, hp.2⟩)
      (fun _ p hp => ⟨⟨hp.1.1.awaits hp.1.2, hp.2.1⟩, hp.2.2⟩)
      (fun _ p hp => ⟨⟨hp.1.1.awaits hp.1.2, hp.2.1⟩, hp.2.2⟩) fun _ => id) fun _ =>
      .read fun _ => id
  refine .bind hlook.attempt_keeps fun listed => ?_
  cases listed with
  | error e => exact .skip
  | ok keys =>
    refine .bind (deleteDeltas_spec fun x hx => storage_spec fun p fault hall hp => ?_)
      fun _ => .skip
    obtain ⟨⟨hp, hdue⟩, rfl⟩ := hp
    have hcomp : (p.durable.stored.remove (.delta x.1 x.2)).compactedChanges n.k =
        p.durable.stored.compactedChanges n.k := rfl
    have hstays : n.due ⊆ (p.durable.stored.remove (.delta x.1 x.2)).changes n.k := by
      rw [← hcomp] at hdue
      exact hdue.trans compacted_subset
    have hkeeps := hp.keeps.removed fault hstays
    have hnext : n.Folded host.engine copy
        (p.after .effect (.delete p.durable.backend (.delta x.1 x.2)) fault) ∧
        (p.after .effect (.delete p.durable.backend (.delta x.1 x.2))
          fault).durable.backend = p.durable.backend := by
      refine ⟨⟨⟨hkeeps, by rw [after_docs]; exact hp.copy, hp.fits.mono fun frame hf => ?_⟩, ?_⟩,
        after_backend⟩
      · rw [after_sent]
        exact hf
      rw [stored, after_backend, after_disk]
      split
      · rw [apply, if_pos rfl]
        exact hdue
      · exact hdue
    exact hcalm.ends hall hnext

lemma compactDoc_tells (entry copy) (hap : copy.doc.applied = entry.doc.applied)
    (hex : copy.doc.exported ⊆ entry.doc.applied ∪ entry.doc.exported) {due}
    (hsub : n.due ⊆ due) (hdue : due ⊆ entry.doc.applied) :
    Spec allowed (fun p => n.Awaits host.engine entry copy p ∧
        ∀ c ∈ n.edits, c ∈ entry.doc.applied → p.durable.Told n.k c ∨ c ∈ due) (compactDoc host n.k)
      (fun _ p =>
        (copy.historyComplete = true → (n.owe due).Awaits host.engine (copy.compacted host.engine)
            (copy.compacted host.engine) p) ∧
        (copy.historyComplete = false → n.Awaits host.engine entry copy p))
      (fun e p => e = .other ∧ DocWriteFails allowed n.k ∧ n.Awaits host.engine entry copy p)
      fun _ => False := by
  refine .consult (fun _ hp => hp.1.copy) ?_
  dsimp only
  split
  · rename_i hcomplete
    refine .observe fun backend => ?_
    refine .bind (Q := fun _ p => (n.owe due).Folded host.engine copy p ∧
        p.durable.backend = backend) (.operate (fun p _ hp => ?_) (fun p f hall hp => ?_)
        fun p f hall _ => hcalm.uncut _ f hall) fun _ => ?_
    · obtain ⟨⟨hp, htold⟩, rfl⟩ := hp
      have hcomp : (p.durable.stored.put (.doc n.k copy.doc.exportCompacted)).compactedChanges
          n.k = entry.doc.applied := put_doc_compacted.trans hap
      have hstays : due ⊆
          (p.durable.stored.put (.doc n.k copy.doc.exportCompacted)).changes n.k := by
        rw [← hcomp] at hdue
        exact hdue.trans compacted_subset
      have hkeeps := hp.keeps.written (.doc n.k copy.doc.exportCompacted) hsub
        (fun c hc hin => htold c hc (hap ▸ hin)) hstays
      refine ⟨⟨⟨hkeeps, by rw [after_docs]; exact hp.copy, ?_⟩, ?_⟩, after_backend⟩
      · refine ⟨hap ▸ hp.fits.closed, hap ▸ hp.fits.edits, hap ▸ hp.fits.known, hap ▸ hdue,
          fun c hc hin => ?_⟩
        have hnow : p.durable.Told n.k c ∨ c ∈ due := by
          rcases mem_union.1 (hex hin) with hin | hin
          · exact htold c hc hin
          · exact (hp.fits.marked c hc hin).imp id fun hd => hsub hd
        refine hnow.imp (Told.mono fun frame hf => ?_) fun hd => hd
        rw [after_sent]
        exact hf
      · rw [stored, after_backend, after_write _ _ _ rfl]
        exact hcomp ▸ hdue
    · cases f with
      | true => exact absurd hall (hcalm.unapplied _)
      | false => exact ⟨rfl, ⟨_, _, _, hall⟩, hp.1.1.unapplied⟩
    · refine .bind (folded_drop hcalm (n.owe due) host) fun _ => ?_
      refine .update fun p hp => ⟨fun _ => hp.1.1.replace rfl rfl, fun hc => ?_⟩
      rw [hcomplete] at hc
      cases hc
  · rename_i hincoming
    exact .pure fun p hp => ⟨fun hc => absurd hc hincoming, fun _ => hp.1⟩

def left (fromPeer : Bool) (due : Finset Change) : Finset Change := if fromPeer then due else ∅

lemma compactOpen_tells (hdrain : entry.doc.applied ⊆ entry.doc.exported) :
    Spec allowed (n.OpenAt host.engine entry)
      (compactDoc host n.k) (fun _ p => n.Holds host.engine p ∧ Drained n.k p)
      (fun _ p => (n.Holds host.engine p ∧ Drained n.k p) ∧ DocWriteFails allowed n.k)
      fun _ => False := by
  refine .given (φ := n.due ⊆ entry.doc.applied) (fun p hp => (hp.1.fits entry hp.2).due)
    fun hdue => ?_
  refine (compactDoc_tells hcalm n host entry entry rfl subset_union_right
    subset_rfl hdue).mono (fun p hp => ⟨hp.1.awaits hp.2, fun c hc hin => ?_⟩)
    (fun _ p hp => ?_) (fun _ p hp => ?_) fun _ => id
  · exact (hp.1.fits entry hp.2).marked c hc (hdrain hin)
  · cases hcomplete : entry.historyComplete with
    | true =>
      have hnext := hp.1 hcomplete
      exact ⟨hnext.holds, ⟨_, hnext.copy, hdrain⟩⟩
    | false =>
      have hnext := hp.2 hcomplete
      exact ⟨hnext.holds, ⟨_, hnext.copy, hdrain⟩⟩
  · exact ⟨⟨hp.2.2.holds, ⟨_, hp.2.2.copy, hdrain⟩⟩, hp.2.1⟩

omit hcalm in
lemma Holds.modified (h : n.Holds eng p) (hf : ∀ entry, (f entry).doc = entry.doc) :
    n.Holds eng ⟨p.durable.modifyDoc n.k f, p.log⟩ ∧
      (Drained n.k p → Drained n.k ⟨p.durable.modifyDoc n.k f, p.log⟩) := by
  refine ⟨h.modify fun entry hfits => hfits.congr (by rw [hf]) (by rw [hf]), ?_⟩
  rintro ⟨old, hold, hdrained⟩
  refine ⟨f old, (get_modifyDoc f).trans (by rw [hold]; rfl), ?_⟩
  rw [hf]
  exact hdrained

lemma finishFlush_tells (hactive : host.replicates n.k.1 = true) {now}
    (fromPeer) {delta : Blob} (oversized) (hdelta : n.due ⊆ delta.changes)
    (hdrain : now.doc.applied ⊆ now.doc.exported) :
    Spec allowed (n.Awaits host.engine now now) (finishFlush host n.k fromPeer delta oversized)
      (fun _ p => (n.owe (left fromPeer n.due)).Holds host.engine p ∧ Drained n.k p)
      (fun e p => ((n.owe (left fromPeer n.due)).Holds host.engine p ∧ Drained n.k p) ∧
        (e = .docTooLarge ∨ DocWriteFails allowed n.k)) fun _ => False := by
  refine .consult (fun _ hp => hp.copy) ?_
  dsimp only
  have hap' : (now.written host.engine delta oversized).doc.applied = now.doc.applied := by
    simp [LoadedDoc.written]
  have hex' : (now.written host.engine delta oversized).doc.exported = now.doc.exported := by
    simp [LoadedDoc.written]
  generalize now.written host.engine delta oversized = after at hap' hex' ⊢
  refine .bind (Q := fun _ => n.OpenAt host.engine after) (.update fun p hp => ?_) fun _ => ?_
  · have hnext : n.Awaits host.engine after after ⟨p.durable.setDoc n.k after, p.log⟩ :=
      hp.replace hap' hex'
    exact ⟨hnext.holds, hnext.copy⟩
  -- A change from the peer is not sent back; any other is told here.
  refine .bind (Q := fun _ p => (n.owe (left fromPeer n.due)).Holds host.engine p ∧
      get p.durable.docs n.k = some after) ?_ fun _ => ?_
  · cases fromPeer with
    | true => exact ((n.surrounds hcalm host).holding after).announceCommit
    | false => exact announceCommit_tells hcalm n host hactive hdelta
  have hdrain' : after.doc.applied ⊆ after.doc.exported := by
    rw [hap', hex']
    exact hdrain
  refine .bind (Q := fun _ p => (n.owe (left fromPeer n.due)).Holds host.engine p ∧
      Drained n.k p) ?_ fun _ => ?_
  · unfold compactWhen
    split
    · exact (compactOpen_tells hcalm (n.owe (left fromPeer n.due)) host hdrain').raising
        (fun _ _ hp => ⟨hp.1, .inr hp.2⟩)
    · exact .pure fun p hp => ⟨hp.1, ⟨_, hp.2, hdrain'⟩⟩
  · refine .bind (Q := fun _ p => (n.owe (left fromPeer n.due)).Holds host.engine p ∧
      Drained n.k p) (.update fun p hp => ?_) fun _ => ?_
    · have hnext := Holds.modified (n.owe (left fromPeer n.due)) hp.1 (f := fun entry =>
        { entry with overCap := (now.doc.checkSize host.engine).1.1 = .tooLarge }) fun _ => rfl
      exact ⟨hnext.1, hnext.2 hp.2⟩
    split
    · exact .raise fun p hp => ⟨hp, .inl rfl⟩
    · exact .pure fun p hp => hp

omit hcalm in
lemma Awaits.rewound {entry copy}
    (h : n.Awaits eng entry copy p) (hap : copy.doc.applied = entry.doc.applied)
    (hprev : copy.doc.previousExported = some entry.doc.exported) :
    n.Holds eng ⟨p.durable.rewind n.k, p.log⟩ := by
  have hget : get (p.durable.rewind n.k).docs n.k =
      some { copy with doc := copy.doc.rewindLastCommit } := by
    show get (modify p.durable.docs n.k _) n.k = _
    rw [get_modify, if_pos rfl, h.copy]
    rfl
  have hsent : ∀ frame ∈ p.durable.sent, frame ∈ (p.durable.rewind n.k).sent := fun _ => id
  have hopen := mem_of_get h.copy
  suffices hnext : n.Awaits eng { copy with doc := copy.doc.rewindLastCommit }
      { copy with doc := copy.doc.rewindLastCommit } ⟨p.durable.rewind n.k, p.log⟩ from hnext.holds
  refine ⟨⟨fun _ => h.keeps.loaded hopen, fun _ => h.keeps.named hopen, h.keeps.stored, h.keeps.due,
    h.keeps.known⟩, hget, .mono hsent (h.fits.congr ?_ ?_)⟩
  · simp only [DataDoc.rewindLastCommit, hprev]
    exact hap
  · simp only [DataDoc.rewindLastCommit, hprev]

lemma writeCommit_tells (hnone : n.due = ∅) {entry} (oversized)
    (hdelta : entry.doc.pendingDelta = some delta)
    (hwhole : oversized = true → entry.historyComplete = true) :
    Spec allowed
      (n.Awaits host.engine entry { entry with doc := entry.doc.committed host.engine delta })
      (writeCommit host n.k entry.nextSeq delta oversized)
      (fun _ p => ∃ now, now.doc.applied = entry.doc.applied ∧
        now.doc.exported = entry.doc.applied ∧
        (n.owe delta.changes).Awaits host.engine now now p)
      (fun e p => e = .other ∧ n.Awaits host.engine entry
        { entry with doc := entry.doc.committed host.engine delta } p) fun _ => False := by
  have hchanged := DataDoc.pendingDelta_changes hdelta
  have hsub : delta.changes ⊆ entry.doc.applied := by
    rw [hchanged]
    exact sdiff_subset
  have hempty : n.due ⊆ delta.changes := by
    rw [hnone]
    exact empty_subset _
  -- What is applied was exported, and so told, or is in the delta.
  have htold {p : Part DataLayer StorageOp} {copy : LoadedDoc}
      (hp : n.Awaits host.engine entry copy p) :
      ∀ c ∈ n.edits, c ∈ entry.doc.applied → p.durable.Told n.k c ∨ c ∈ delta.changes := by
    intro c hc hin
    by_cases hex : c ∈ entry.doc.exported
    · exact (hp.fits.marked c hc hex).imp id fun hd => hempty hd
    rw [hchanged]
    exact .inr (mem_sdiff.2 ⟨hin, hex⟩)
  cases oversized with
  | true =>
    refine (compactDoc_tells hcalm n host entry
      { entry with doc := entry.doc.committed host.engine delta } rfl
      subset_union_left hempty hsub).mono (fun p hp => ⟨hp, htold hp⟩) (fun _ p hp => ?_)
      (fun _ _ hp => ⟨hp.1, hp.2.2⟩) fun _ => id
    let now := ({ entry with doc := entry.doc.committed host.engine delta } : LoadedDoc)
    exact ⟨now.compacted host.engine, rfl, rfl, hp.1 (hwhole rfl)⟩
  | false =>
    refine .observe fun backend => ?_
    refine .operate (fun p _ hp => ?_) (fun p f hall hp => ⟨rfl, ?_⟩)
      fun p f hall _ => hcalm.uncut _ f hall
    · obtain ⟨hp, rfl⟩ := hp
      have hput : (p.durable.stored.put (.delta n.k entry.nextSeq delta)).deltaChanges n.k
          entry.nextSeq = delta.changes := by
        simp only [deltaChanges, put, get_insert_self, Option.map_some, Option.getD_some]
      have hkeeps := hp.keeps.written (.delta n.k entry.nextSeq delta) hempty
        (fun c _ hin => .inr hin) (hput ▸ delta_subset)
      refine ⟨{ entry with doc := entry.doc.committed host.engine delta }, rfl, rfl, hkeeps,
        by rw [after_docs]; exact hp.copy, ?_⟩
      refine ⟨hp.fits.closed, hp.fits.edits, hp.fits.known, hsub,
        fun c hc hin => (htold hp c hc hin).imp (Told.mono fun frame hf => ?_) fun hd => hd⟩
      rw [after_sent]
      exact hf
    · cases f with
      | true => exact absurd hall (hcalm.unapplied _)
      | false => exact hp.1.unapplied

lemma flushDocFrom_tells (hactive : host.replicates n.k.1 = true) (hnone : n.due = ∅)
    (entry fromPeer) :
    Spec allowed (n.OpenAt host.engine entry) (flushDocFrom host n.k fromPeer)
      (fun _ p => (n.owe (left fromPeer (entry.doc.applied \ entry.doc.exported))).Holds
        host.engine p ∧ Drained n.k p)
      (fun e p => (((n.owe (left fromPeer (entry.doc.applied \ entry.doc.exported))).Holds
        host.engine p ∧ Drained n.k p) ∧ (e = .docTooLarge ∨ DocWriteFails allowed n.k)) ∨
        (e = .other ∧ n.Holds host.engine p)) fun _ => False := by
  have howe : n.owe ∅ = n := by
    rw [← hnone]
    rfl
  refine .consult (fun _ hp => hp.2) ?_
  dsimp only
  split
  · rename_i hdelta
    have hall := DataDoc.pendingDelta_none hdelta
    have hleft : left fromPeer (entry.doc.applied \ entry.doc.exported) = ∅ := by
      rw [hall, sdiff_self, left]
      cases fromPeer <;> rfl
    rw [hleft, howe]
    exact .pure fun p hp => ⟨hp.1, ⟨_, hp.2, hall.subset⟩⟩
  rename_i delta hdelta
  refine .bind (Q := fun _ => n.Awaits host.engine entry
      { entry with doc := entry.doc.committed host.engine delta })
    (.update fun p hp => (hp.1.awaits hp.2).replace rfl rfl) fun _ => ?_
  have hrew {Q} (e) (he : e = .other) : Spec allowed (n.Awaits host.engine entry
        { entry with doc := entry.doc.committed host.engine delta })
      (do update (.rewind n.k); raise e : DataM Unit) Q
      (fun e p => e = .other ∧ n.Holds host.engine p) fun _ => False := by
    refine .bind (Q := fun _ => n.Holds host.engine)
      (.update fun p hp => Awaits.rewound n hp rfl rfl) fun _ => ?_
    exact .raise fun p hp => ⟨he, hp⟩
  split
  · exact (hrew .other rfl).raising fun _ _ => .inr
  rename_i hfits
  refine .bind (Q := fun written p => match written with
      | .ok _ => ∃ now, now.doc.applied = entry.doc.applied ∧
          now.doc.exported = entry.doc.applied ∧
          (n.owe delta.changes).Awaits host.engine now now p
      | .error e => e = .other ∧ n.Awaits host.engine entry
          { entry with doc := entry.doc.committed host.engine delta } p)
    (.attempt (writeCommit_tells hcalm n host hnone _ hdelta fun hover => ?_))
    fun written => ?_
  · simpa [hover] using hfits
  cases written with
  | error e =>
    refine .given (φ := e = .other) (fun _ hp => hp.1) fun he => ?_
    exact ((hrew e he).raising fun _ _ => .inr).pre fun _ hp => hp.2
  | ok _ =>
    refine .named fun now => ?_
    refine .given (φ := now.doc.applied = entry.doc.applied ∧
      now.doc.exported = entry.doc.applied) (fun _ hp => ⟨hp.1, hp.2.1⟩) fun hnow => ?_
    have hfin := finishFlush_tells hcalm (n.owe delta.changes) host hactive fromPeer
      (maxProtocolStateRecordBytes < host.engine.bytes delta) subset_rfl
      (by rw [hnow.1, hnow.2])
    rw [← DataDoc.pendingDelta_changes hdelta]
    exact hfin.mono (fun _ hp => hp.2.2) (fun _ _ => id) (fun _ _ hp => .inl hp) fun _ => id

end

end News

end OfflineProtocol
