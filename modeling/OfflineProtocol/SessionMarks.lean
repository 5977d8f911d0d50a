import OfflineProtocol.SessionCoherence

/-! The spent mark: a stamp per peer that an old directive cannot pass. -/
namespace OfflineProtocol.SessionSlots
open KeyedTable EventTrace SlotStore List PeerRecords

namespace PeerRecords

def Covers (r : PeerRecords) (peer : PeerId) (t : ℤ) : Prop :=
  ∃ mark, get r.controlResetWatermark peer = some mark ∧ t ≤ mark

structure Durable (r : PeerRecords) (localId : PeerId) : Prop where
  nodup : r.encryptionCapablePeers.Nodup
  capped : r.encryptionCapablePeers.length ≤ maxEncryptionCapablePeers
  valid : ∀ p ∈ r.encryptionCapablePeers, p ≠ "" ∧ p ≠ localId
  capable : ∀ p e, get r.entries p = some e → p ∈ r.encryptionCapablePeers
  stamped : ∀ p e, get r.entries p = some e → 0 ≤ e.lastResetMs
  written : ∀ p mark, get r.controlResetWatermark p = some mark →
    0 < mark ∧ ∃ e, get r.entries p = some e ∧ e.lastResetMs = mark

structure Advances (localId : PeerId) (r r' : PeerRecords) : Prop where
  durable : r.Durable localId → r'.Durable localId
  covers : ∀ p t, r.Covers p t → r'.Covers p t
  capable : ∀ p ∈ r.encryptionCapablePeers, p ∈ r'.encryptionCapablePeers

variable {localId peer : PeerId} {r r' r'' : PeerRecords}

lemma Advances.refl (localId r) : Advances localId r r :=
  ⟨fun h => h, fun _ _ => id, fun _ => id⟩

lemma Advances.trans (h : Advances localId r r') (h' : Advances localId r' r'') :
    Advances localId r r'' :=
  ⟨fun hr => h'.durable (h.durable hr), fun p t hp => h'.covers p t (h.covers p t hp),
    fun p hp => h'.capable p (h.capable p hp)⟩

lemma mem_markEncryptionCapable (hvalid : peer ≠ "" ∧ peer ≠ localId)
    (hroom : peer ∈ r.encryptionCapablePeers ∨
      r.encryptionCapablePeers.length < maxEncryptionCapablePeers) :
    peer ∈ (r.markEncryptionCapable localId peer).encryptionCapablePeers := by
  unfold markEncryptionCapable
  split_ifs with h1 h2 h3
  · exact absurd h1 (not_or.2 hvalid)
  · exact h2
  · exact absurd hroom (not_or.2 ⟨h2, not_lt.2 h3⟩)
  · exact .head _

lemma markEncryptionCapable_advances (localId peer) (r : PeerRecords) :
    Advances localId r (r.markEncryptionCapable localId peer) := by
  unfold markEncryptionCapable
  split_ifs with h1 h2 h3
  · exact .refl localId r
  · exact .refl localId r
  · exact .refl localId r
  refine ⟨fun h => ?_, fun _ _ => id, fun _ h => mem_cons_of_mem _ h⟩
  exact
    { nodup := nodup_cons.2 ⟨h2, h.nodup⟩
      capped := Nat.lt_of_not_le h3
      valid := forall_mem_cons.2 ⟨not_or.1 h1, h.valid⟩
      capable := fun p e he => mem_cons_of_mem _ (h.capable p e he)
      stamped := h.stamped
      written := h.written }

lemma Durable.currentCapableEntry_nonneg (h : r.Durable localId) {peer} :
    0 ≤ (r.currentCapableEntry peer).lastResetMs := by
  unfold currentCapableEntry
  cases hmark : get r.controlResetWatermark peer with
  | none => exact le_rfl
  | some mark => exact (h.written peer mark hmark).1.le

lemma persistEntry_advances (hpeer : peer ∈ r.encryptionCapablePeers) :
    Advances localId r (r.persistEntry peer) := by
  refine ⟨fun h => ?_, fun _ _ => id, fun _ => id⟩
  exact
    { h with
      capable := by
        intro p e he
        simp only [persistEntry, get_insert] at he
        split_ifs at he with hp
        · exact hp ▸ hpeer
        · exact h.capable p e he
      stamped := by
        intro p e he
        simp only [persistEntry, get_insert] at he
        split_ifs at he with hp
        · cases he
          exact h.currentCapableEntry_nonneg
        · exact h.stamped p e he
      written := by
        intro p mark hmark
        obtain ⟨hpos, e, he, hlast⟩ := h.written p mark hmark
        have hmark' : get r.controlResetWatermark p = some mark := hmark
        refine ⟨hpos, ?_⟩
        simp only [persistEntry, get_insert]
        split_ifs with hp
        · subst hp
          exact ⟨_, rfl, by simp only [currentCapableEntry, hmark', Option.getD_some]⟩
        · exact ⟨e, he, hlast⟩ }

lemma recordEncryptionCapable_advances (localId peer) (r : PeerRecords) :
    Advances localId r (r.recordEncryptionCapable localId peer) := by
  have hmark := markEncryptionCapable_advances localId peer r
  simp only [recordEncryptionCapable]
  split
  · exact hmark
  rename_i h1
  split
  · exact hmark
  have hwrite := hmark.trans (persistEntry_advances (not_not.1 h1))
  exact ⟨fun h => { hwrite.durable h with }, hwrite.covers, hwrite.capable⟩

lemma recordControlFreshnessProved_advances (localId peer) (r : PeerRecords) :
    Advances localId r (r.recordControlFreshnessProved peer) := by
  unfold recordControlFreshnessProved
  split
  · exact .refl localId r
  rename_i h1
  split
  · exact .refl localId r
  have hproved : Advances localId r
      { r with controlFreshnessPeers := peer :: r.controlFreshnessPeers } :=
    ⟨fun h => { h with }, fun _ _ => id, fun _ => id⟩
  exact hproved.trans (persistEntry_advances (not_not.1 h1))

lemma verifyControlMessage_advances :
    Advances localId r (verifyControlMessage r localId frame) := by
  have hcap := recordEncryptionCapable_advances localId frame.sender r
  unfold verifyControlMessage
  split
  · exact hcap
  · exact hcap.trans (recordControlFreshnessProved_advances localId frame.sender _)

lemma recordResetSpent_mark (hpeer : peer ∈ r.encryptionCapablePeers) (signed p) :
    get (r.recordResetSpent peer signed).controlResetWatermark p =
      if p = peer then some signed else get r.controlResetWatermark p := by
  rw [recordResetSpent, if_neg (not_not.2 hpeer)]
  exact get_insert

lemma recordResetSpent_entry (hpeer : peer ∈ r.encryptionCapablePeers) (signed p) :
    get (r.recordResetSpent peer signed).entries p =
      if p = peer then
        some { ctrlFreshnessProved := decide (peer ∈ r.controlFreshnessPeers)
               lastResetMs := signed }
      else get r.entries p := by
  rw [recordResetSpent, if_neg (not_not.2 hpeer)]
  simp only [persistEntry, currentCapableEntry, get_insert, if_true, Option.getD_some]

lemma recordResetSpent_capable (r : PeerRecords) (peer signed) :
    (r.recordResetSpent peer signed).encryptionCapablePeers = r.encryptionCapablePeers := by
  unfold recordResetSpent
  split <;> rfl

lemma recordResetSpent_advances (hpos : 0 < signed)
    (hunspent : r.resetIsUnspent peer signed = true) :
    Advances localId r (r.recordResetSpent peer signed) := by
  by_cases hpeer : peer ∈ r.encryptionCapablePeers
  swap
  · rw [recordResetSpent, if_pos hpeer]
    exact .refl localId r
  have hmarks := recordResetSpent_mark hpeer signed
  have hentries := recordResetSpent_entry hpeer signed
  have hcap := recordResetSpent_capable r peer signed
  refine ⟨fun h => ?_, ?_, fun p hp => by rwa [hcap]⟩
  · exact
      { nodup := by rw [hcap]; exact h.nodup
        capped := by rw [hcap]; exact h.capped
        valid := by rw [hcap]; exact h.valid
        capable := by
          intro p e he
          rw [hentries] at he
          rw [hcap]
          split_ifs at he with hp
          · exact hp ▸ hpeer
          · exact h.capable p e he
        stamped := by
          intro p e he
          rw [hentries] at he
          split_ifs at he with hp
          · cases he
            exact hpos.le
          · exact h.stamped p e he
        written := by
          intro p mark hmark
          rw [hmarks] at hmark
          rw [hentries]
          split_ifs at hmark ⊢ with hp
          · cases hmark
            exact ⟨hpos, _, rfl, rfl⟩
          · exact h.written p mark hmark }
  · rintro p t ⟨mark, hmark, hle⟩
    simp only [Covers, hmarks]
    split_ifs with hp
    · subst hp
      simp only [resetIsUnspent, hmark, decide_eq_true_eq] at hunspent
      exact ⟨signed, rfl, hle.trans hunspent.le⟩
    · exact ⟨mark, hmark, hle⟩

lemma noteSessionFrameStamp_advances (hpos : 0 < signed)
    (hahead : signed ≤ host.now + spentMarkClockToleranceMs) :
    Advances localId r (r.noteSessionFrameStamp host peer signed) := by
  have hstamps : Advances localId r { r with
      sessionBuildStamps := trackIn r.sessionBuildStamps peer (signed, host.instant) } :=
    ⟨fun h => { h with }, fun _ _ => id, fun _ => id⟩
  simp only [noteSessionFrameStamp, if_pos hahead]
  split
  · rename_i hunspent
    exact hstamps.trans (recordResetSpent_advances hpos hunspent)
  · exact hstamps

lemma noteSessionFrameStamp_covers (hpeer : peer ∈ r.encryptionCapablePeers)
    (hahead : signed ≤ host.now + spentMarkClockToleranceMs) :
    (r.noteSessionFrameStamp host peer signed).Covers peer signed := by
  simp only [noteSessionFrameStamp, if_pos hahead]
  split
  · simp only [recordResetSpent, if_neg (not_not.2 hpeer), Covers, persistEntry]
    exact ⟨signed, get_insert_self, le_rfl⟩
  rename_i hunspent
  unfold resetIsUnspent at hunspent
  split at hunspent
  · exact absurd rfl hunspent
  rename_i mark hmark
  simp only [decide_eq_true_eq, not_lt] at hunspent
  exact ⟨mark, hmark, hunspent⟩

structure Restored (r : PeerRecords) (done : List (PeerId × EncryptionCapableEntry)) : Prop where
  capable : r.encryptionCapablePeers = (done.map Prod.fst).reverse
  marks : ∀ p mark, get r.controlResetWatermark p = some mark ↔
    ∃ e, (p, e) ∈ done ∧ e.lastResetMs = mark ∧ mark ≠ 0

lemma restoreEntry_restored (h : r.Restored done)
    (hvalid : stored.1 ≠ "" ∧ stored.1 ≠ localId) (hnew : stored.1 ∉ done.map Prod.fst)
    (hroom : done.length < maxEncryptionCapablePeers) :
    (restoreEntry localId r stored).Restored (done ++ [stored]) := by
  have hfresh : stored.1 ∉ r.encryptionCapablePeers := by
    rw [h.capable, mem_reverse]
    exact hnew
  have hlen : r.encryptionCapablePeers.length = done.length := by
    rw [h.capable, length_reverse, length_map]
  -- No entry of the same peer stands before this one.
  have hlast (p) (mark) : (∃ e, (p, e) ∈ done ++ [stored] ∧ e.lastResetMs = mark ∧
      mark ≠ 0) ↔ (∃ e, (p, e) ∈ done ∧ e.lastResetMs = mark ∧ mark ≠ 0) ∨
        (p = stored.1 ∧ stored.2.lastResetMs = mark ∧ mark ≠ 0) := by
    constructor
    · rintro ⟨e, he, hrest⟩
      rcases mem_append.1 he with he | he
      · exact .inl ⟨e, he, hrest⟩
      obtain rfl := mem_singleton.1 he
      exact .inr ⟨rfl, hrest⟩
    · rintro (⟨e, he, hrest⟩ | ⟨rfl, hrest⟩)
      · exact ⟨e, mem_append_left _ he, hrest⟩
      · exact ⟨stored.2, mem_append_right _ (.head _), hrest⟩
  have hcap : (restoreEntry localId r stored).encryptionCapablePeers =
      stored.1 :: r.encryptionCapablePeers := by
    simp only [restoreEntry, markEncryptionCapable, if_neg (not_or.2 hvalid), if_neg hfresh,
      if_neg (not_le.2 (hlen ▸ hroom)), mem_cons, true_or, not_true, if_false]
    split_ifs <;> rfl
  have hmarks : (restoreEntry localId r stored).controlResetWatermark =
      if stored.2.lastResetMs = 0 then r.controlResetWatermark
      else r.controlResetWatermark.insert stored.1 stored.2.lastResetMs := by
    simp only [restoreEntry, markEncryptionCapable, if_neg (not_or.2 hvalid), if_neg hfresh,
      if_neg (not_le.2 (hlen ▸ hroom)), mem_cons, true_or, not_true, if_false]
    split_ifs <;> rfl
  have hnone (mark) : get r.controlResetWatermark stored.1 ≠ some mark := by
    intro hmark
    obtain ⟨e, he, -⟩ := (h.marks stored.1 mark).1 hmark
    exact hnew (mem_map.2 ⟨_, he, rfl⟩)
  constructor
  · rw [hcap, h.capable, map_append, reverse_append]
    rfl
  intro p mark
  rw [hlast, ← h.marks, hmarks]
  split_ifs with hzero
  · constructor
    · exact .inl
    rintro (hmark | ⟨-, hmark, hne⟩)
    · exact hmark
    · exact absurd (hmark.symm.trans hzero) hne
  rw [get_insert]
  split_ifs with hp
  · subst hp
    constructor
    · intro hmark
      cases hmark
      exact .inr ⟨rfl, rfl, hzero⟩
    rintro (hmark | ⟨-, hmark, -⟩)
    · exact absurd hmark (hnone mark)
    · rw [hmark]
  · constructor
    · exact .inl
    rintro (hmark | ⟨hsame, -⟩)
    · exact hmark
    · exact absurd hsame hp

lemma foldl_restored (h : r.Restored done)
    (hvalid : ∀ e ∈ rest, e.1 ≠ "" ∧ e.1 ≠ localId) (hnodup : ((done ++ rest).map Prod.fst).Nodup)
    (hroom : (done ++ rest).length ≤ maxEncryptionCapablePeers) :
    (rest.foldl (restoreEntry localId) r).Restored (done ++ rest) := by
  induction rest generalizing r done with
  | nil => simpa using h
  | cons stored rest ih =>
    rw [append_cons] at hnodup hroom ⊢
    apply ih
    · apply restoreEntry_restored h (hvalid stored (.head _))
      · rw [map_append, map_append] at hnodup
        have := (nodup_append.1 (nodup_append.1 hnodup).1).2.2
        intro hmem
        exact this _ hmem _ (.head _) rfl
      · simp only [length_append, length_cons, length_nil] at hroom
        omega
    · exact fun e he => hvalid e (.tail _ he)
    · exact hnodup
    · exact hroom

@[simp] lemma restoreEntry_entries (stored) :
    (restoreEntry localId r stored).entries = r.entries := by
  simp only [restoreEntry, markEncryptionCapable]
  split_ifs <;> rfl

lemma foldl_entries {rest : List (PeerId × EncryptionCapableEntry)} :
    (rest.foldl (restoreEntry localId) r).entries = r.entries := by
  induction rest generalizing r with
  | nil => rfl
  | cons stored rest ih => rw [foldl_cons, ih, restoreEntry_entries]

lemma restoreEncryptionCapablePeers_advances (h : r.Durable localId) (order) :
    (r.restoreEncryptionCapablePeers localId order).Durable localId ∧
      ∀ p t, r.Covers p t → (r.restoreEncryptionCapablePeers localId order).Covers p t := by
  set listed := visit r.entries order with hlist
  have hmem (p) (e) : (p, e) ∈ listed ↔ get r.entries p = some e := mem_visit
  have hnodup : (listed.map Prod.fst).Nodup := visit_nodup
  have hsub : listed.map Prod.fst ⊆ r.encryptionCapablePeers := by
    intro p hp
    obtain ⟨⟨q, e⟩, hq, rfl⟩ := mem_map.1 hp
    exact h.capable q e ((hmem q e).1 hq)
  have hlen : listed.length ≤ maxEncryptionCapablePeers := by
    have hle := (subperm_of_subset hnodup hsub).length_le
    rw [length_map] at hle
    exact hle.trans h.capped
  have htake : listed.take maxRestoreKeysPerCategory = listed := by
    apply take_of_length_le
    exact hlen.trans (by decide)
  set r0 : PeerRecords :=
    { r with
      encryptionCapablePeers := []
      encryptionCapablePersisted := []
      controlFreshnessPeers := []
      controlResetWatermark := ∅
      sessionBuildStamps := ∅ } with hr0
  have hrestored : (listed.foldl (restoreEntry localId) r0).Restored listed := by
    have hstart : r0.Restored [] := ⟨rfl, by simp [hr0]⟩
    apply foldl_restored hstart
    · intro e he
      exact h.valid e.1 (hsub (mem_map_of_mem he))
    · exact hnodup
    · exact hlen
  have hentries : (listed.foldl (restoreEntry localId) r0).entries = r.entries :=
    foldl_entries
  have heq : r.restoreEncryptionCapablePeers localId order =
      listed.foldl (restoreEntry localId) r0 := by
    unfold restoreEncryptionCapablePeers
    rw [← hlist, htake]
  rw [heq]
  constructor
  · exact
      { nodup := by
          rw [hrestored.capable, nodup_reverse]
          exact hnodup
        capped := by
          rw [hrestored.capable, length_reverse, length_map]
          exact hlen
        valid := by
          intro p hp
          rw [hrestored.capable, mem_reverse] at hp
          exact h.valid p (hsub hp)
        capable := by
          intro p e he
          rw [hentries] at he
          rw [hrestored.capable, mem_reverse]
          exact mem_map.2 ⟨(p, e), (hmem p e).2 he, rfl⟩
        stamped := by
          intro p e he
          rw [hentries] at he
          exact h.stamped p e he
        written := by
          intro p mark hmark
          obtain ⟨e, he, rfl, hne⟩ := (hrestored.marks p mark).1 hmark
          have hstored := (hmem p e).1 he
          refine ⟨lt_of_le_of_ne (h.stamped p e hstored) hne.symm, e, ?_, rfl⟩
          rw [hentries]
          exact hstored }
  · rintro p t ⟨mark, hmark, hle⟩
    obtain ⟨hpos, e, he, hlast⟩ := h.written p mark hmark
    exact ⟨mark, (hrestored.marks p mark).2 ⟨e, (hmem p e).2 he, hlast, hpos.ne'⟩, hle⟩

end PeerRecords

namespace SessionDevice

structure MarksCover (s : SessionDevice) : Prop where
  durable : s.records.Durable s.localId
  covered : ∀ p held, get s.slots.sessions p = some held → s.records.Covers p held.builtFrom

structure Benign (s s' : SessionDevice) : Prop where
  localId : s'.localId = s.localId
  sessions : ∀ p held, get s'.slots.sessions p = some held → get s.slots.sessions p = some held
  records : Advances s.localId s.records s'.records

variable {peer : PeerId} {s s' s'' : SessionDevice} {config : SessionConfig} {host : SessionHost}
variable {freshness : Option ℤ} {frame : ControlFrame}

lemma Benign.trans (h : Benign s s') (h' : Benign s' s'') : Benign s s'' where
  localId := h'.localId.trans h.localId
  sessions p held hp := h.sessions p held (h'.sessions p held hp)
  records := h.records.trans (h.localId ▸ h'.records)

lemma Benign.marksCover (h : Benign s s') (hs : s.MarksCover) : s'.MarksCover where
  durable := by
    rw [h.localId]
    exact h.records.durable hs.durable
  covered p held hp := h.records.covers p _ (hs.covered p held (h.sessions p held hp))

lemma Steady.benign (h : Steady peer s s') : Benign s s' where
  localId := h.localId
  sessions p held hp := by rwa [h.sessions] at hp
  records := by
    rw [h.records]
    exact .refl _ _

lemma benign_of_sessions {slots} (h : slots.sessions = s.slots.sessions) :
    Benign s { s with slots := slots } where
  localId := rfl
  sessions p held hp := by
    rw [← h]
    exact hp
  records := .refl _ _

lemma manualMlsDeleteSession_benign {s : SessionDevice} :
    Benign s { s with slots := s.slots.manualMlsDeleteSession peer } where
  localId := rfl
  sessions p held hp := by
    simp only [manualMlsDeleteSession, get_erase] at hp
    split_ifs at hp
    exact hp
  records := .refl _ _

lemma discardLocalSession_benign {s : SessionDevice} :
    Benign s (s.discardLocalSession peer) := by
  rcases discardLocalSession_slots s peer with heq | heq
  · rw [heq]
    exact (Steady.refl peer s).benign
  rw [heq]
  exact manualMlsDeleteSession_benign

lemma dropSessionForReset_benign {s : SessionDevice} :
    Benign s (s.dropSessionForReset peer) :=
  { manualMlsDeleteSession_benign with }

lemma records_benign {records}
    (h : Advances s.localId s.records records) : Benign s { s with records := records }
    :=
  ⟨rfl, fun _ _ => id, h⟩

lemma compared_benign {s : SessionDevice} : Benign s (s.compared peer theirs source) := by
  unfold compared
  split
  · exact benign_of_sessions (confirmSessionState_keeps _ _ _).1
  · exact benign_of_sessions (confirmSessionState_keeps _ _ _).1
  · exact (Steady.refl peer s).benign
  · exact (Steady.refl peer s).benign

lemma compared_sessions (s : SessionDevice) (peer theirs) (source) :
    (s.compared peer theirs source).slots.sessions = s.slots.sessions := by
  unfold compared
  split
  · exact (confirmSessionState_keeps _ _ _).1
  · exact (confirmSessionState_keeps _ _ _).1
  · rfl
  · rfl

lemma openEncrypted_benign :
    Benign s (openEncrypted config host s peer message) := by
  rcases openEncrypted_outcome config host s peer
      message with hstead | ⟨held, -, -, m, hm, heq⟩ | ⟨held, -, -, -, heq⟩
  · exact hstead.benign
  · rw [heq]
    exact hm.benign.trans discardLocalSession_benign
  rw [heq]
  have hsess : (s.openedFrom peer message).slots.sessions = s.slots.sessions :=
    (confirmSessionState_keeps _ _ _).1
  exact
    { localId := rfl
      sessions := fun p held hp => by rwa [hsess] at hp
      records := .refl _ _ }

lemma Drains.benign (h : Drains config host s peer s') : Benign s s' :=
  h.rule (P := Benign s) (fun _ _ hsteady ht => ht.trans hsteady.benign)
    (fun _ _ _ ht => ht.trans openEncrypted_benign) (Steady.refl peer s).benign

lemma handleEncryptedMessage_benign :
    Benign s (handleEncryptedMessage config host s peer message) := by
  simp only [handleEncryptedMessage]
  split
  · exact processPendingDecryption_rule (P := Benign s) _ _ _ _ openEncrypted_benign
      fun _ _ _ ht => ht.trans openEncrypted_benign
  · exact openEncrypted_benign

/-- Frames of the session's own epoch leave it where it is. -/
lemma Drains.keeps (h : Drains config host s peer s') (hheld : get s.slots.sessions peer = some held)
    (hqueue : ∀ message ∈ host.waiting, message.epoch = held.epoch) :
    get s'.slots.sessions peer = some held := by
  refine h.rule (P := fun t => get t.slots.sessions peer = some held)
    (fun _ _ hsteady ht => by rwa [hsteady.sessions]) (fun t message hmem ht => ?_) hheld
  rcases openEncrypted_outcome config host t peer message with
    hsteady | ⟨other, hother, hepoch, -⟩ | ⟨-, -, -, -, heq⟩
  · rwa [hsteady.sessions]
  · cases ht.symm.trans hother
    exact absurd (hqueue message hmem) hepoch
  · have hsess : (t.openedFrom peer message).slots.sessions = t.slots.sessions :=
      (confirmSessionState_keeps _ _ _).1
    rwa [heq, hsess]

lemma handleSessionConfirmProbe_benign (theirs) :
    Benign s (handleSessionConfirmProbe config host s peer theirs) := by
  rcases handleSessionConfirmProbe_outcome config host s peer theirs with hstead | ⟨-, heq⟩
  · exact compared_benign.trans hstead.benign
  rw [heq]
  exact (Steady.refl peer s).benign

lemma handleSessionConfirmAck_benign (theirs) :
    Benign s (handleSessionConfirmAck config host s peer theirs) := by
  rcases handleSessionConfirmAck_outcome config host s peer theirs with hstead | ⟨-, heq⟩ |
    ⟨-, -, -, m, hm, heq⟩
  · exact compared_benign.trans hstead.benign
  · rw [heq]
    exact (Steady.refl peer s).benign
  rw [heq]
  exact hm.benign.trans discardLocalSession_benign

lemma obeyDirectives_benign (config host s)
    (peer payload) (hpos : ∀ stamp ∈ freshness, 0 < stamp) :
    Benign s (obeyDirectives config host s peer payload freshness) := by
  have hself := (Steady.refl peer s).benign
  have hspent (stamp : ℤ) (hstamp : stamp ∈ freshness)
      (hunspent : s.directiveUnspent peer freshness = true) :
      Benign s { s with records := s.records.recordResetSpent peer stamp } := by
    apply records_benign
    apply recordResetSpent_advances (hpos stamp hstamp)
    cases hstamp
    exact hunspent
  unfold obeyDirectives
  by_cases hreset : payload.sessionReset = true ∧
      (freshness.isSome || !config.controlFreshnessEnforced ||
        decide (peer ∉ s.records.controlFreshnessPeers)) = true ∧
      s.directiveUnspent peer freshness = true
  · -- The reset leaves no session for the second directive to find.
    have happlied : Benign s (s.applySessionReset peer freshness) ∧
        (s.applySessionReset peer freshness).slots.hasSession peer = false := by
      have hgone (m : SessionDevice) : (m.dropSessionForReset peer).slots.hasSession peer = false
        := by
        simp [hasSession, dropSessionForReset, manualMlsDeleteSession, get_erase]
      unfold applySessionReset
      cases hf : freshness with
      | none =>
        simp only
        split
        · exact ⟨dropSessionForReset_benign, hgone s⟩
        rename_i hnone
        exact ⟨hself, by simpa using hnone⟩
      | some stamp =>
        have hmark := hspent stamp (by rw [hf]; rfl) hreset.2.2
        simp only
        split
        · exact ⟨hmark.trans dropSessionForReset_benign, hgone _⟩
        rename_i hnone
        exact ⟨hmark, by simpa using hnone⟩
    simp only [if_pos hreset]
    split
    · simp only [answerPeerWithoutSession, happlied.2, Bool.not_false, if_true]
      exact happlied.1
    · exact happlied.1
  · simp only [if_neg hreset]
    split
    · unfold answerPeerWithoutSession
      split
      · exact hself
      split
      · exact hself
      · exact resendWelcome_steady.benign
      split
      · exact hself
      rename_i stamp
      split
      · exact hself
      rename_i hunspent
      split
      · exact hself
      · exact (hspent stamp rfl (by simpa using hunspent)).trans dropSessionForReset_benign
    · exact hself

def MayBuild (config : SessionConfig) (s : SessionDevice) (frame : ControlFrame) : Prop :=
  match frame.body with
  | .keyPackage payload => s.slots.hasSession frame.sender = false ∨
      payload.sessionReset = true ∨ payload.noSession = true
  | .welcome _ => s.slots.hasSession frame.sender = false ∨
      config.book.givesWayTo s.localId frame.sender = true
  | _ => False

instance (config : SessionConfig) (s : SessionDevice) (frame : ControlFrame) :
    Decidable (MayBuild config s frame) := by
  dsimp only [MayBuild]
  split <;> infer_instance

/-- The mark can follow the frame: its stamp is signed, no further ahead than the
tolerance, and its signer is or can be recorded. -/
structure Anchored (s : SessionDevice) (host : SessionHost) (frame : ControlFrame) : Prop where
  version : frame.version = .v2
  ahead : frame.timestamp ≤ host.now + spentMarkClockToleranceMs
  valid : frame.sender ≠ "" ∧ frame.sender ≠ s.localId
  room : frame.sender ∈ s.records.encryptionCapablePeers ∨
    s.records.encryptionCapablePeers.length < maxEncryptionCapablePeers

instance (s : SessionDevice) (host : SessionHost) (frame : ControlFrame) :
    Decidable (Anchored s host frame) :=
  decidable_of_iff
    (frame.version = .v2 ∧ frame.timestamp ≤ host.now + spentMarkClockToleranceMs ∧
      (frame.sender ≠ "" ∧ frame.sender ≠ s.localId) ∧
      (frame.sender ∈ s.records.encryptionCapablePeers ∨
        s.records.encryptionCapablePeers.length < maxEncryptionCapablePeers))
    ⟨fun ⟨h1, h2, h3, h4⟩ => ⟨h1, h2, h3, h4⟩, fun h => ⟨h.version, h.ahead, h.valid, h.room⟩⟩

/-- A session is built only at once from a frame the mark can follow; the send path
finds one already, or no package to build from. -/
def MovesMark (config : SessionConfig) (s : SessionDevice) (op : SessionHost × SessionOp) : Prop :=
  match op.2 with
  | .receive frame => (frame.version = .v2 → 0 < frame.timestamp) ∧
      (MayBuild config s frame → Anchored s op.1 frame)
  | .establish p => s.slots.hasSession p = true ∨ p ∉ s.slots.pendingKeyPackages
  | .ensure p => s.slots.hasSession p = true ∨ p ∉ s.slots.pendingKeyPackages
  | _ => True

instance (config : SessionConfig) (s : SessionDevice) :
    ∀ op, Decidable (MovesMark config s op) := by
  rintro ⟨host, op⟩
  cases op <;> dsimp only [MovesMark] <;> infer_instance

lemma marksCover_built {m m' : SessionDevice} (hm : m.MarksCover)
    (hlocal : m'.localId = m.localId)
    (hsess : m'.slots.sessions = m.slots.sessions.insert peer built)
    (hreco : Advances m.localId m.records m'.records)
    (hcovered : m'.records.Covers peer built.builtFrom) : m'.MarksCover where
  durable := by
    rw [hlocal]
    exact hreco.durable hm.durable
  covered := by
    intro p held hp
    rw [hsess, get_insert] at hp
    split_ifs at hp with hpeer
    · cases hp
      exact hpeer ▸ hcovered
    · exact hreco.covers p _ (hm.covered p held hp)

lemma pushKeyPackage_pending (reset noSession) :
    (s.pushKeyPackage host peer reset noSession).1.slots.pendingKeyPackages =
      s.slots.pendingKeyPackages := by
  have hrest := (s.slots.takePushKeyPackage_pushes host peer).rest
  simp only [pushKeyPackage]
  split
  · rw [hrest]
  simp only [emit]
  rw [hrest]

lemma cacheAndReciprocate_pending (config host) (s peer) (payload timestamp) : ∃ received,
      get (cacheAndReciprocate config host s peer payload timestamp).slots.pendingKeyPackages peer =
        some received ∧ received.frameStamp = timestamp := by
  simp only [cacheAndReciprocate]
  split
  · simp only [sendKeyPackageTo, pushKeyPackage_pending, cacheKeyPackage, get_insert_self]
    exact ⟨_, rfl, rfl⟩
  simp only [cacheKeyPackage, get_insert_self]
  exact ⟨_, rfl, rfl⟩

lemma autoEstablish_marksCover {received : ReceivedKeyPackage}
    (hs : s.MarksCover) (hcoherent : s.Coherent config)
    (hrec : get s.slots.pendingKeyPackages peer = some received)
    (hbuild : s.slots.hasSession peer = false → ∃ stamp, freshness = some stamp ∧
      received.frameStamp = stamp ∧ 0 < stamp ∧ stamp ≤ host.now + spentMarkClockToleranceMs ∧
      peer ∈ s.records.encryptionCapablePeers) :
    (autoEstablish config host s peer freshness).MarksCover := by
  simp only [autoEstablish]
  split
  · exact hs
  rcases establishSecureSession_outcome config host _ peer
      (fun hnone => hcoherent.unretained hnone) with
    ⟨hstate, hstead⟩ | ⟨hstate, hnone, received', hrec', -, hstead⟩
  · have hafter := hstead.benign.marksCover hs
    split
    · rename_i hcreated
      exact absurd hcreated hstate
    · split
      · exact hafter
      · exact rearmWelcomeForPeer_steady.benign.marksCover hafter
    · exact hafter
  · obtain ⟨stamp, rfl, hstamp, hpos, hahead, hcap⟩ := hbuild hnone
    obtain rfl : received' = received := Option.some.inj (hrec'.symm.trans hrec)
    rw [hstate]
    have hmark := markEncryptionCapable_advances s.localId peer s.records
    have hreco : (establishSecureSession config host s peer).1.records =
        s.records.markEncryptionCapable s.localId peer := hstead.records
    refine marksCover_built hs ?_ hstead.sessions ?_ ?_
    · exact hstead.localId
    · simp only [hreco]
      exact hmark.trans (noteSessionFrameStamp_advances hpos hahead)
    simp only [hreco, hstamp]
    exact noteSessionFrameStamp_covers (hmark.capable peer hcap) hahead

lemma handleKeyPackageMessage_marksCover (hs : s.MarksCover) (hcoherent : s.Coherent config)
    (hpos : ∀ stamp ∈ freshness, 0 < stamp)
    (hbuild : s.slots.hasSession peer = false ∨ payload.sessionReset = true ∨
        payload.noSession = true →
      freshness = some timestamp ∧ timestamp ≤ host.now + spentMarkClockToleranceMs ∧
        peer ∈ s.records.encryptionCapablePeers) :
    (handleKeyPackageMessage config host s peer payload timestamp freshness).MarksCover := by
  have hlearn := learnAdvertised_steady s peer payload
  have hobey := obeyDirectives_benign config host (s.learnAdvertised peer payload) peer payload hpos
  have hcache := cacheAndReciprocate_steady config host
    (obeyDirectives config host (s.learnAdvertised peer payload) peer payload freshness) peer
    payload timestamp
  have hbefore := (hlearn.benign.trans hobey).trans hcache.benign
  obtain ⟨received, hrec, hstamp⟩ := cacheAndReciprocate_pending config host
    (obeyDirectives config host (s.learnAdvertised peer payload) peer payload freshness) peer
    payload timestamp
  apply autoEstablish_marksCover (hbefore.marksCover hs) ?_ hrec
  · intro hnone
    -- A slot that is free now was free before, or a directive freed it.
    have hmay : s.slots.hasSession peer = false ∨ payload.sessionReset = true ∨
        payload.noSession = true := by
      by_contra hnot
      push Not at hnot
      obtain ⟨hsession, hreset, hno⟩ := hnot
      rw [hcache.hasSession] at hnone
      simp only [obeyDirectives, hreset, hno, Bool.false_eq_true, false_and, if_false] at hnone
      exact hsession hnone
    obtain ⟨rfl, hahead, hcap⟩ := hbuild hmay
    exact ⟨timestamp, rfl, hstamp, hpos timestamp rfl, hahead, hbefore.records.capable peer hcap⟩
  · apply hcache.coherent
    apply obeyDirectives_coherent
    exact hlearn.coherent hcoherent

lemma handleWelcomeMessage_marksCover {sender : PeerId} (hs : s.MarksCover)
    (hbuild : s.slots.hasSession sender = false ∨ config.book.givesWayTo s.localId sender = true →
      freshness = some timestamp ∧ 0 < timestamp ∧
        timestamp ≤ host.now + spentMarkClockToleranceMs ∧
        sender ∈ s.records.encryptionCapablePeers) :
    (handleWelcomeMessage config host s sender welcome timestamp freshness).MarksCover := by
  have hmark := markEncryptionCapable_advances s.localId sender s.records
  by_cases hjoins : Joins config s sender welcome
  · have hmay : s.slots.hasSession sender = false ∨
        config.book.givesWayTo s.localId sender = true := by
      cases hsession : s.slots.hasSession sender with
      | false => exact .inl rfl
      | true => exact .inr (hjoins.yields hsession)
    obtain ⟨rfl, hpos, hahead, hcap⟩ := hbuild hmay
    have hstead := handleWelcomeMessage_joins host hjoins timestamp (some timestamp)
    apply hstead.benign.marksCover
    have hsess : (joined host s sender welcome timestamp (some timestamp)).slots.sessions =
        s.slots.sessions.insert sender
          { group := welcome.group, epoch := welcome.epoch, establishedAt := host.now,
            builtFrom := timestamp } := by
      simp only [joined, (confirmSessionState_keeps _ _ _).1, adopted, noteAdoption]
      rw [← hjoins.inviter]
      split <;> rfl
    have hlocal : (joined host s sender welcome timestamp (some timestamp)).localId = s.localId :=
      rfl
    apply marksCover_built hs hlocal hsess
    · exact hmark.trans (noteSessionFrameStamp_advances hpos hahead)
    · exact noteSessionFrameStamp_covers (hmark.capable sender hcap) hahead
  · rcases handleWelcomeMessage_keeps host hjoins timestamp freshness with
      heq | ⟨kept, hkept, hstead⟩
    · rw [heq]
      exact hs
    have hsess : kept.sessions = s.slots.sessions := by
      cases hkept <;> rfl
    have hlearned : Benign s { s with
        slots := kept, records := s.records.markEncryptionCapable s.localId sender } :=
      ⟨rfl, fun p held hp => by rwa [← hsess], hmark⟩
    exact (hlearned.trans hstead.benign).marksCover hs

lemma verified_capable (h : Anchored s host frame) :
    frame.sender ∈ (s.verified frame).records.encryptionCapablePeers := by
  have hmark := mem_markEncryptionCapable h.valid h.room
  have hrecord : frame.sender ∈
      (s.records.recordEncryptionCapable s.localId frame.sender).encryptionCapablePeers := by
    simp only [recordEncryptionCapable, if_neg (not_not.2 hmark)]
    split
    · exact hmark
    · exact hmark
  simp only [verified, verifyControlMessage, h.version]
  exact (recordControlFreshnessProved_advances s.localId _ _).capable _ hrecord

lemma verified_benign (s : SessionDevice) (frame) : Benign s (s.verified frame) :=
  records_benign verifyControlMessage_advances

lemma judgeControlFrameFreshness_version (now r) (frame : ControlFrame)
    (henforced : config.controlFreshnessEnforced = true) :
    (judgeControlFrameFreshness config now r frame = .bound → frame.version = .v2) ∧
      (judgeControlFrameFreshness config now r frame = .unbound → frame.version = .v1) := by
  simp only [judgeControlFrameFreshness, henforced, Bool.not_true, Bool.false_eq_true, if_false]
  cases frame.version with
  | v1 => simp; split_ifs <;> simp
  | v2 => simp; split <;> simp

lemma dispatch_marksCover (hs : s.MarksCover)
    (hcoherent : s.Coherent config) (hpos : ∀ stamp ∈ freshness, 0 < stamp)
    (hbuild : MayBuild config s frame → freshness = some frame.timestamp ∧
      frame.timestamp ≤ host.now + spentMarkClockToleranceMs ∧
      frame.sender ∈ s.records.encryptionCapablePeers) :
    (dispatch config host s frame freshness).MarksCover := by
  unfold dispatch
  split
  · rename_i payload hbody
    apply handleKeyPackageMessage_marksCover hs hcoherent hpos
    intro hmay
    exact hbuild (by rw [MayBuild, hbody]; exact hmay)
  · exact (handleSessionConfirmProbe_benign _).marksCover hs
  · exact (handleSessionConfirmAck_benign _).marksCover hs
  · rename_i welcome hbody
    apply handleWelcomeMessage_marksCover hs
    intro hmay
    obtain ⟨hfreshness, hahead, hcap⟩ := hbuild (by rw [MayBuild, hbody]; exact hmay)
    exact ⟨hfreshness, hpos frame.timestamp hfreshness, hahead, hcap⟩
  · exact handleEncryptedMessage_benign.marksCover hs

section
variable (henforced : config.controlFreshnessEnforced = true)
include henforced

lemma processInternalMessage_marksCover (hs : s.MarksCover)
    (hcoherent : s.Coherent config) (hmoves : MovesMark config s (host, .receive frame)) :
    (processInternalMessage config host s frame).MarksCover := by
  obtain ⟨hpos, hbuild⟩ := hmoves
  have hver := (verified_benign s frame).marksCover hs
  have hver' : (s.verified frame).Coherent config := hcoherent
  have hversion := judgeControlFrameFreshness_version host.now (s.verified frame).records frame
    henforced
  unfold processInternalMessage
  split
  · -- A sealed frame builds nothing.
    rename_i hgated
    have hbody : ∃ message, frame.body = .encrypted message := by
      revert hgated
      cases frame.body <;> simp [FrameBody.securityGated]
    obtain ⟨message, hbody⟩ := hbody
    simp only [dispatch, hbody]
    exact handleEncryptedMessage_benign.marksCover hs
  split
  · exact hver
  · rename_i hbound
    apply dispatch_marksCover hver hver'
    · intro stamp hstamp
      cases hstamp
      exact hpos (hversion.1 hbound)
    intro hmay
    have hanchor := hbuild hmay
    exact ⟨rfl, hanchor.ahead, verified_capable hanchor⟩
  rename_i hunbn
  have hstead := noteOlderPayload_steady config (s.verified frame) frame.sender frame
  apply dispatch_marksCover (hstead.benign.marksCover hver) (hstead.coherent hver')
  · simp
  intro hmay
  -- An unsigned stamp cannot build: the condition asks for a signed one.
  have hsame : MayBuild config s frame := by
    revert hmay
    unfold MayBuild
    split
    · rw [hstead.hasSession]
      exact id
    · rw [hstead.hasSession, hstead.localId]
      exact id
    · exact id
  have hv2 := (hbuild hsame).version
  rw [hversion.2 hunbn] at hv2
  cases hv2

lemma perform_marksCover {op} (hs : s.MarksCover) (hcoherent : s.Coherent config)
    (hmoves : MovesMark config s op) : (perform config s op).MarksCover := by
  obtain ⟨host, op⟩ := op
  cases op with
  | receive frame => exact processInternalMessage_marksCover henforced hs hcoherent hmoves
  | establish p =>
    rcases hmoves with hsession | hnone
    · rcases establishSecureSession_outcome config host _ p
          (fun hnone => hcoherent.unretained hnone) with ⟨-, hstead⟩ | ⟨-, hfree, -⟩
      · exact hstead.benign.marksCover hs
      · exact absurd (hsession.symm.trans hfree) (by simp)
    · rcases establishSecureSession_outcome config host _ p
          (fun hnone => hcoherent.unretained hnone) with
        ⟨-, hstead⟩ | ⟨-, -, received, hrec, -⟩
      · exact hstead.benign.marksCover hs
      · exact absurd (mem_of_get hrec) hnone
  | ensure p =>
    simp only [perform, ensureSessionEstablishment]
    split
    · exact hs
    rename_i hfree
    have hfree' : s.slots.hasSession p = false := by simpa using hfree
    rcases hmoves with hsession | hnone
    · exact absurd (hsession.symm.trans hfree') (by simp)
    rcases buildFromPending_outcome config host
        (hcoherent.unretained hfree') with ⟨-, hstead⟩ | ⟨-, received, hrec, -⟩
    · exact hstead.benign.marksCover hs
    · exact absurd (mem_of_get hrec) hnone
  | probe p => exact (sendSessionConfirmationProbe_steady p).benign.marksCover hs
  | reask p => exact (reaskCorroboration_steady p).benign.marksCover hs
  | push p => exact (Steady.benign (sendKeyPackageTo_steady host false)).marksCover hs
  | rekey p =>
    obtain ⟨m, hm, heq | heq⟩ := rekeySession_outcome host s p
    · have hafter : perform config s (host, .rekey p) = m := heq
      rw [hafter]
      exact hm.benign.marksCover hs
    have hafter : perform config s (host, .rekey p) = m.discardLocalSession p := heq
    rw [hafter]
    exact (hm.benign.trans discardLocalSession_benign).marksCover hs
  | deleteSession p => exact manualMlsDeleteSession_benign.marksCover hs
  | retryWelcome p => exact (retryWelcome_steady p).benign.marksCover hs
  | welcomeTimeout p => exact (welcomeTimeout_steady p).benign.marksCover hs
  | restart order =>
    obtain ⟨hdur, hcovered⟩ :=
      restoreEncryptionCapablePeers_advances hs.durable order
    exact ⟨hdur, fun p held hp => hcovered p _ (hs.covered p held hp)⟩

lemma run_marksCover {localId}
    (hrun : AlongSteps (step config) (MovesMark config) (freshDevice localId) ops) :
    (runSteps (step config) (freshDevice localId) ops).1.MarksCover := by
  have hboth := runSteps_along (P := fun s => MarksCover s ∧ Coherent config s)
    (fun s op h hmoves => ⟨perform_marksCover henforced h.1 h.2 hmoves, perform_coherent h.2⟩)
    hrun ⟨?_, freshDevice_coherent⟩
  · exact hboth.1
  exact
    { durable :=
        { nodup := nodup_nil
          capped := Nat.zero_le _
          valid := nofun
          capable := nofun
          stamped := nofun
          written := nofun }
      covered := nofun }

end

/-- The two frames no mark is consulted for: a Welcome is not adopted over the
session, and an acknowledgement does not answer the challenge out. -/
def PassesBy (config : SessionConfig) (s : SessionDevice) (frame : ControlFrame) : Prop :=
  match frame.body with
  | .welcome welcome => ¬Joins config s frame.sender welcome
  | .confirmAck theirs => ∀ c, theirs = some c → ¬s.ChallengeLive frame.sender c.nonce
  | _ => True

lemma obeyDirectives_covered (config host) (s : SessionDevice)
    (peer payload) (hcovered : s.records.Covers peer stamp) :
    Steady peer s (obeyDirectives config host s peer payload (some stamp)) := by
  have hspent : s.directiveUnspent peer (some stamp) = false := by
    obtain ⟨mark, hmark, hle⟩ := hcovered
    simp only [directiveUnspent, resetIsUnspent, hmark, decide_eq_false_iff_not, not_lt]
    exact hle
  simp only [obeyDirectives, hspent, Bool.false_eq_true, and_false, if_false]
  split
  · unfold answerPeerWithoutSession
    split
    · exact .refl peer s
    split
    · exact .refl peer s
    · exact resendWelcome_steady
    simp only [Bool.not_false, if_true]
    exact .refl peer s
  · exact .refl peer s

lemma handleKeyPackageMessage_covered
    (hcoherent : s.Coherent config) (hcovered : s.records.Covers peer stamp)
    (hheld : get s.slots.sessions peer = some held) :
    get (handleKeyPackageMessage config host s peer payload stamp (some stamp)).slots.sessions peer
      = some held := by
  have hlearn := learnAdvertised_steady s peer payload
  have hobey := obeyDirectives_covered config host (s.learnAdvertised peer payload) peer payload
    hcovered
  have hbefore := (hlearn.trans hobey).trans
    (cacheAndReciprocate_steady config host _ _ payload stamp)
  have hsession := hbefore.hasSession peer
  rw [hasSession_of_get hheld] at hsession
  -- The slot is taken, so nothing is built.
  simp only [handleKeyPackageMessage, autoEstablish]
  split
  · rw [hbefore.sessions]
    exact hheld
  rcases establishSecureSession_outcome config host _ peer
      (fun hnone => (hbefore.coherent hcoherent).unretained hnone) with
    ⟨hstate, hstead⟩ | ⟨-, hfree, -⟩
  · have hafter := hbefore.trans hstead
    split
    · rename_i hcreated
      exact absurd hcreated hstate
    · split
      · rw [hafter.sessions]
        exact hheld
      rw [(hafter.trans rearmWelcomeForPeer_steady).sessions]
      exact hheld
    · rw [hafter.sessions]
      exact hheld
  · exact absurd (hsession.symm.trans hfree) (by simp)

lemma processInternalMessage_covered
    (henforced : config.controlFreshnessEnforced = true) (hcoherent : s.Coherent config)
    (hversion : frame.version = .v2) (hgated : FrameBody.securityGated frame.body = true)
    (hcovered : s.records.Covers frame.sender frame.timestamp)
    (hheld : get s.slots.sessions frame.sender = some held)
    (hqueue : ∀ message ∈ host.waiting, message.epoch = held.epoch)
    (hpasses : PassesBy config s frame) :
    get (processInternalMessage config host s frame).slots.sessions frame.sender = some held := by
  have hver : get (s.verified frame).slots.sessions frame.sender = some held := hheld
  have hver' : (s.verified frame).Coherent config := hcoherent
  have hcovered' := (verified_benign s frame).records.covers _ _ hcovered
  simp only [processInternalMessage, hgated, Bool.not_true, Bool.false_eq_true, if_false]
  split
  · exact hver
  swap
  · rename_i hunbn
    have hv1 := (judgeControlFrameFreshness_version _ _ _ henforced).2 hunbn
    rw [hversion] at hv1
    cases hv1
  unfold dispatch
  split
  · exact handleKeyPackageMessage_covered hver' hcovered' hver
  · rename_i theirs hbody
    rcases handleSessionConfirmProbe_outcome config host (s.verified frame) frame.sender theirs
      with hstead | ⟨-, heq⟩
    · exact hstead.keeps (by rwa [compared_sessions]) hqueue
    rw [heq]
    exact hver
  · rename_i theirs hbody
    rcases handleSessionConfirmAck_outcome config host (s.verified frame) frame.sender theirs with
      hstead | ⟨-, heq⟩ | ⟨-, -, ⟨c, hc, hlive⟩, -⟩
    · exact hstead.keeps (by rwa [compared_sessions]) hqueue
    · rw [heq]
      exact hver
    rw [PassesBy, hbody] at hpasses
    exact absurd hlive (hpasses c hc)
  · rename_i welcome hbody
    rw [PassesBy, hbody] at hpasses
    have hpass' : ¬Joins config (s.verified frame) frame.sender welcome := by
      intro hjoins
      exact hpasses ⟨hjoins.inviter, hjoins.slot, hjoins.offered, hjoins.proven, hjoins.yields⟩
    rcases handleWelcomeMessage_keeps host hpass' frame.timestamp
        (some frame.timestamp) with heq | ⟨kept, hkept, hstead⟩
    · rw [heq]
      exact hver
    rw [hstead.sessions]
    cases hkept with
    | same => exact hver
    | spent _ => exact hver
    | gated _ _ _ => exact hver
  · rename_i message hbody
    rw [hbody] at hgated
    cases hgated

/-- In a run whose sessions are all built from frames the mark can follow, no frame
signed at or before the one a session was built from deletes or replaces it, a
Welcome the device would adopt, the answer to its own challenge and a queued frame of
another epoch apart. -/
theorem old_frames_spare_sessions (henforced : config.controlFreshnessEnforced = true)
    {localId : PeerId} {ops : List (SessionHost × SessionOp)}
    (hrun : AlongSteps (step config) (MovesMark config) (freshDevice localId) ops)
    (host : SessionHost) {frame : ControlFrame} {held : SessionGroup}
    (hheld : get (runSteps (step config) (freshDevice localId) ops).1.slots.sessions frame.sender =
      some held)
    (hversion : frame.version = .v2) (hgated : FrameBody.securityGated frame.body = true)
    (hold : frame.timestamp ≤ held.builtFrom)
    (hqueue : ∀ message ∈ host.waiting, message.epoch = held.epoch)
    (hpasses : PassesBy config (runSteps (step config) (freshDevice localId) ops).1 frame) :
    get (perform config (runSteps (step config) (freshDevice localId) ops).1
      (host, .receive frame)).slots.sessions frame.sender = some held := by
  have hmarks := run_marksCover henforced hrun
  have hcovered : (runSteps (step config) (freshDevice localId) ops).1.records.Covers
      frame.sender frame.timestamp := by
    obtain ⟨mark, hmark, hle⟩ := hmarks.covered frame.sender held hheld
    exact ⟨mark, hmark, hold.trans hle⟩
  exact processInternalMessage_covered henforced (run_coherent config localId ops) hversion hgated
    hcovered hheld hqueue hpasses

def alice : PeerId := "off1qyqqqqqqqqqqqqqqqqqqqqqqqqqqqqqqqqn8antf"

def bob : PeerId := "off1q8llllllllllllllllllllllllllllllluvweh4p"

def defaultConfig : SessionConfig where
  book := ⟨SignedPayloads.bech32m⟩
  controlFreshnessEnforced := true
  autoKeyExchange := true
  encryptionEnabled := true
  cryptoRecoveryEnabled := true
  maxRetries := 5

def carryingHost (localId : PeerId) (now : ℤ) (n : ℕ) : SessionHost where
  now := now
  instant := n * 1000
  freshGroup := n
  freshNonce := n
  minted := { reference := n, owner := localId, notBefore := 0, notAfter := 2000000 }
  carrier := true
  carried := true
  noCarrier := false
  reachable := true
  waiting := []

def bobsPackage (timestamp : ℤ) (reference : PackageRef) (sessionReset : Bool) : ControlFrame where
  sender := bob
  timestamp := timestamp
  version := .v2
  body := .keyPackage
    { package := { reference := reference, owner := bob, notBefore := 0, notAfter := 2000000 }
      sessionReset := sessionReset
      noSession := false
      remainingLifetimeMs := 1000000
      ctrlFreshness := true }

def buildAhead (ahead : ℤ) : List (SessionHost × SessionOp) :=
  [(carryingHost alice 1000000000 1, .receive (bobsPackage (1000000000 + ahead) 7 false))]

theorem old_reset_spares_session :
    get (perform defaultConfig
      (runSteps (step defaultConfig) (freshDevice alice) (buildAhead 60000)).1
      (carryingHost alice 1000001000 2,
        .receive (bobsPackage 1000059999 8 true))).slots.sessions bob =
      some { group := 1, epoch := 1, establishedAt := 1000000000, builtFrom := 1000060000 } :=
  old_frames_spare_sessions rfl (by decide +kernel) _ (by decide +kernel) rfl rfl (by decide)
    (by decide) trivial

/-- Half an hour ahead, the mark is clamped to five minutes: the reset signed a
millisecond before the package the session was built from tears it down. -/
theorem old_reset_replaces_session :
    get (runSteps (step defaultConfig) (freshDevice alice) (buildAhead 1800000)).1.slots.sessions
        bob =
      some { group := 1, epoch := 1, establishedAt := 1000000000, builtFrom := 1001800000 } ∧
    get (perform defaultConfig
      (runSteps (step defaultConfig) (freshDevice alice) (buildAhead 1800000)).1
      (carryingHost alice 1000001000 2,
        .receive (bobsPackage 1001799999 8 true))).slots.sessions bob =
      some { group := 2, epoch := 1, establishedAt := 1000001000, builtFrom := 1001799999 } := by
  decide +kernel

end SessionDevice
end OfflineProtocol.SessionSlots
