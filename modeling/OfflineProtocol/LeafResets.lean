import OfflineProtocol.LeafRuns

/-! A captured session reset is worth one teardown: over any replays, evictions,
re-pairings and power cuts the stamps of the resets a leaf device acts on rise
strictly, peer by peer, as long as no peer's record is deleted while the last
reset it names could still arrive. -/
namespace OfflineProtocol.LeafDevice
open KeyedTable Interruption EventTrace FlashOp List Triple

def Stale (t : ℤ) (now : ℕ) : Prop := controlFrameFreshness t (millis now) = .stale

instance (t : ℤ) (now : ℕ) : Decidable (Stale t now) :=
  inferInstanceAs (Decidable (controlFrameFreshness t (millis now) = .stale))

lemma stale_iff : Stale t now ↔ leafCtrlFreshnessPastMs < saturatingSub (millis now) t := by
  have hwindow : 0 < leafCtrlFreshnessPastMs := by decide
  unfold Stale controlFrameFreshness
  simp only
  split_ifs <;> simp <;> omega

lemma saturatingSub_mono (hab : a ≤ b) (hdc : d ≤ c) : saturatingSub a c ≤ saturatingSub b d := by
  unfold saturatingSub
  omega

lemma millis_mono (h : a ≤ b) : millis a ≤ millis b := by
  have hmul : a * 1000 ≤ b * 1000 := Nat.mul_le_mul_right _ h
  unfold millis
  omega

lemma Stale.mono (h : Stale t now) (ht : t' ≤ t) (hn : now ≤ now') : Stale t' now' := by
  rw [stale_iff] at h ⊢
  exact lt_of_lt_of_le h (saturatingSub_mono (millis_mono hn) ht)

def marks (log : List (FlashOp × Fault)) : List (String × ℤ) :=
  log.filterMap fun e => match e with
    | (.markReset p record, .done) => some (p, record.lastResetMs)
    | _ => none

def Rising (acted : List (String × ℤ)) : Prop :=
  acted.Pairwise fun a b => a.1 = b.1 → a.2 < b.2

/-- Every reset acted on is at or below its peer's mark, or can no longer be
heard. `past` are those of earlier calls. -/
structure ResetsSpent (past : List (String × ℤ)) (now : ℕ) (s : Part Flash FlashOp) : Prop where
  spent : ∀ p t, (p, t) ∈ past ++ marks s.log →
    0 < t ∧ (t ≤ (s.durable.peerRecord p).lastResetMs ∨ Stale t now)
  nonneg : ∀ p, 0 ≤ (s.durable.peerRecord p).lastResetMs
  rising : Rising (past ++ marks s.log)

def Quiet : FlashOp → Prop
  | .storePeer _ _ => False
  | .markReset _ _ => False
  | .deletePeer _ => False
  | _ => True

def Spared (past : List (String × ℤ)) (now : ℕ) (p : String) (s : Part Flash FlashOp) : Prop :=
  ∀ t, (p, t) ∈ past ++ marks s.log → Stale t now

section
variable {past : List (String × ℤ)} {now : ℕ} {s : Part Flash FlashOp}
variable {op : FlashOp} {p : String}

lemma marks_append {a b} : marks (a ++ b) = marks a ++ marks b :=
  filterMap_append

lemma marks_after (h : ∀ p record, op = .markReset p record → fault ≠ .done) :
    marks (s.after effect op fault).log = marks s.log := by
  rw [Part.after, marks_append]
  have hnone : marks [(op, fault)] = [] := by
    cases op with
    | markReset p record =>
      cases fault with
      | done => exact absurd rfl (h p record rfl)
      | failed applied => rfl
      | cut applied => rfl
    | _ => rfl
  rw [hnone, append_nil]

lemma quiet_peers (h : Quiet op) (f) : (op.effect f).peers = f.peers := by
  cases op <;> first | rfl | exact absurd h id

lemma peerRecord_quiet (h : Quiet op) (fault p) :
    (s.after effect op fault).durable.peerRecord p = s.durable.peerRecord p := by
  unfold Flash.peerRecord Part.after
  split_ifs
  · rw [quiet_peers h]
  · rfl

lemma marks_quiet (h : Quiet op) (fault) : marks (s.after effect op fault).log = marks s.log :=
  marks_after fun p record hop => by
    subst hop
    exact absurd h id

lemma resetsSpent_quiet : Keeps Quiet (ResetsSpent past now) := by
  intro s op fault hop hs
  constructor
  · intro p t hmem
    rw [marks_quiet hop] at hmem
    rw [peerRecord_quiet hop]
    exact hs.spent p t hmem
  · intro p
    rw [peerRecord_quiet hop]
    exact hs.nonneg p
  · rw [marks_quiet hop]
    exact hs.rising

lemma spared_quiet : Keeps Quiet (Spared past now p) := by
  intro s op fault hop hs t hmem
  rw [marks_quiet hop] at hmem
  exact hs t hmem

lemma peerRecord_written (op) (h : ∀ f, (op.effect f).peers = f.peers.insert p record) (fault q) :
    (s.after effect op fault).durable.peerRecord q = s.durable.peerRecord q ∨
      q = p ∧ (s.after effect op fault).durable.peerRecord q = record := by
  unfold Flash.peerRecord Part.after
  split_ifs
  · rw [h, get_insert]
    split_ifs with hq
    · exact .inr ⟨hq, rfl⟩
    · exact .inl rfl
  · exact .inl rfl

section
variable (hs : ResetsSpent past now s)
include hs

lemma ResetsSpent.write (h : ∀ f, (op.effect f).peers = f.peers.insert p record)
    (hle : (s.durable.peerRecord p).lastResetMs ≤ record.lastResetMs)
    (hmarks : marks (s.after effect op fault).log = marks s.log) :
    ResetsSpent past now (s.after effect op fault) := by
  constructor
  · intro q t hmem
    rw [hmarks] at hmem
    obtain ⟨hpos, hlast⟩ := hs.spent q t hmem
    refine ⟨hpos, ?_⟩
    rcases peerRecord_written (s := s) op h fault q with hq | ⟨rfl, hq⟩
    · rwa [hq]
    rw [hq]
    exact hlast.imp_left fun ht => ht.trans hle
  · intro q
    rcases peerRecord_written (s := s) op h fault q with hq | ⟨rfl, hq⟩
    · rw [hq]
      exact hs.nonneg q
    rw [hq]
    exact (hs.nonneg q).trans hle
  · rw [hmarks]
    exact hs.rising

lemma ResetsSpent.storePeer
    (heq : (s.durable.peerRecord p).lastResetMs = record.lastResetMs) :
    ResetsSpent past now (s.after effect (.storePeer p record) fault) :=
  hs.write (fun _ => rfl) heq.le (marks_after nofun)

/-- A mark on flash: its stamp is above every reset of the peer acted on before,
for what is above the mark is new and what was forgotten is stale. -/
lemma ResetsSpent.mark (hunspent : (s.durable.peerRecord p).lastResetMs < record.lastResetMs)
    (hheard : ¬Stale record.lastResetMs now) (fault) :
    ResetsSpent past now (s.after effect (.markReset p record) fault) := by
  by_cases hdone : fault = .done
  · subst hdone
    have hmarks : marks (s.after effect (.markReset p record) .done).log =
        marks s.log ++ [(p, record.lastResetMs)] := marks_append
    have habove : ∀ t, (p, t) ∈ past ++ marks s.log → t < record.lastResetMs := by
      intro t hmem
      rcases (hs.spent p t hmem).2 with hle | hstale
      · exact lt_of_le_of_lt hle hunspent
      by_contra hnot
      exact hheard (hstale.mono (not_lt.1 hnot) le_rfl)
    have hself : (s.after effect (.markReset p record) .done).durable.peerRecord p =
        record := by
      show (get (s.durable.peers.insert p record) p).getD .new = record
      rw [get_insert_self]
      rfl
    constructor
    · intro q t hmem
      rw [hmarks, ← append_assoc] at hmem
      rcases mem_append.1 hmem with hold | hnew
      · obtain ⟨hpos, hlast⟩ := hs.spent q t hold
        refine ⟨hpos, ?_⟩
        rcases peerRecord_written (s := s) (.markReset p record) (fun _ => rfl) .done q with
          hq | ⟨rfl, hq⟩
        · rwa [hq]
        rw [hq]
        exact .inl (habove t hold).le
      · cases mem_singleton.1 hnew
        rw [hself]
        exact ⟨lt_of_le_of_lt (hs.nonneg p) hunspent, .inl le_rfl⟩
    · intro q
      rcases peerRecord_written (s := s) (.markReset p record) (fun _ => rfl) .done q with
        hq | ⟨rfl, hq⟩
      · rw [hq]
        exact hs.nonneg q
      rw [hq]
      exact (hs.nonneg q).trans hunspent.le
    · rw [hmarks, ← append_assoc]
      refine pairwise_append.2 ⟨hs.rising, pairwise_singleton _ _, ?_⟩
      rintro ⟨q, t⟩ hold b hb
      rw [mem_singleton.1 hb]
      rintro rfl
      exact habove t hold
  · exact hs.write (fun _ => rfl) hunspent.le (marks_after fun _ _ _ => hdone)

lemma ResetsSpent.deletePeer (hspar : Spared past now p s) :
    ResetsSpent past now (s.after effect (.deletePeer p) fault) := by
  have hmarks : marks (s.after effect (.deletePeer p) fault).log = marks s.log :=
    marks_after nofun
  have hrecord : ∀ q, (s.after effect (.deletePeer p) fault).durable.peerRecord q =
      s.durable.peerRecord q ∨ q = p ∧
      (s.after effect (.deletePeer p) fault).durable.peerRecord q = .new := by
    intro q
    unfold Flash.peerRecord Part.after
    split_ifs
    · show (get (s.durable.peers.erase p) q).getD .new = _ ∨ _ ∧
        (get (s.durable.peers.erase p) q).getD .new = _
      rw [get_erase]
      split_ifs with hq
      · exact .inr ⟨hq, rfl⟩
      · exact .inl rfl
    · exact .inl rfl
  constructor
  · intro q t hmem
    rw [hmarks] at hmem
    obtain ⟨hpos, hlast⟩ := hs.spent q t hmem
    refine ⟨hpos, ?_⟩
    rcases hrecord q with hq | ⟨rfl, -⟩
    · rwa [hq]
    · exact .inr (hspar t hmem)
  · intro q
    rcases hrecord q with hq | ⟨rfl, hq⟩
    · rw [hq]
      exact hs.nonneg q
    rw [hq]
    exact le_rfl
  · rw [hmarks]
    exact hs.rising

end

end

def deletesSession (p : String) : FlashOp → Bool
  | .deleteEpoch q _ => q = p
  | .deleteState q => q = p
  | .deleteHighWater q => q = p
  | _ => false

def Grows (q : String) (L : List (FlashOp × Fault) → Prop) : Prop :=
  ∀ log op fault, deletesSession q op = false → L log → L (log ++ [(op, fault)])

def Guard (L : List (FlashOp × Fault) → Prop) (past : List (String × ℤ)) (now : ℕ)
    (s : Part Flash FlashOp) : Prop :=
  ResetsSpent past now s ∧ L s.log

def Calm (q : String) (op : FlashOp) : Prop := Quiet op ∧ deletesSession q op = false

section
variable {me : LeafIdentity} {past : List (String × ℤ)} {now : ℕ}

variable {p : String} {op : FlashOp}

lemma guard_calm (hL : Grows q L) : Keeps (Calm q) (Guard L past now) :=
  fun s op fault hop hs => ⟨resetsSpent_quiet s op fault hop.1 hs.1, hL s.log op fault hop.2 hs.2⟩

lemma besideState_calm (h : BesideState p op) : Calm q op := by
  cases h with
  | keyPackage h => cases h <;> exact ⟨trivial, rfl⟩
  | storeEpoch n w => exact ⟨trivial, rfl⟩
  | storeHighWater n => exact ⟨trivial, rfl⟩
  | trimEpoch n => exact ⟨trivial, rfl⟩

lemma keyPackageOp_calm (h : KeyPackageOp op) : Calm q op :=
  besideState_calm (p := q) (.keyPackage h)

lemma peerIndexOp_calm (h : PeerIndexOp op) : Calm q op := by
  cases h
  exact ⟨trivial, rfl⟩

lemma talkOp_calm (h : TalkOp p op) : Calm q op := by
  cases h with
  | counter n => exact ⟨trivial, rfl⟩
  | state entry => exact ⟨trivial, rfl⟩
  | beside h => exact besideState_calm h
  | index h => exact peerIndexOp_calm h

lemma sessionDelete_quiet (h : SessionDelete p op) : Quiet op := by
  cases h <;> trivial

lemma sessionDelete_calm (h : SessionDelete p op) (hp : p ≠ q) : Calm q op := by
  cases h <;> exact ⟨trivial, decide_eq_false hp⟩

section
variable (hL : Grows q L)
include hL

lemma guard_record :
    Keeps (Calm q) (fun s => Guard L past now s ∧ (s.durable.peerRecord p).lastResetMs = t) := by
  rintro s op fault hop ⟨hs, ht⟩
  refine ⟨guard_calm hL s op fault hop hs, ?_⟩
  rwa [peerRecord_quiet hop.1]

lemma storePeer_keeps (ht : record.lastResetMs = t) :
    Triple (fun s => Guard L past now s ∧ (s.durable.peerRecord p).lastResetMs = t)
      (onFlash (.storePeer p record)) (fun _ => Guard L past now) (Guard L past now) := by
  have hstored : ∀ s fault, Guard L past now s ∧ (s.durable.peerRecord p).lastResetMs = t →
      Guard L past now (s.after effect (.storePeer p record) fault) := by
    rintro s fault ⟨hs, heq⟩
    exact ⟨hs.1.storePeer (heq.trans ht.symm), hL s.log _ fault rfl hs.2⟩
  apply Triple.operate
  · exact fun s hs => hstored s .done hs
  · exact fun s fault hs _ => hstored s fault hs

lemma keyPackageFrame_keeps :
    Preserves (Guard L past now) (keyPackageFrame me peer t reference) := by
  have hcalm : Keeps (Calm q) (Guard L past now) := guard_calm hL
  have hmint : Preserves (Guard L past now) (mint reference t) :=
    insert_preserves (hcalm.mono fun _ hop => keyPackageOp_calm hop)
  have hread : Triple (Guard L past now) (peerRecord peer) (fun record s => Guard L past now s ∧
      (s.durable.peerRecord peer).lastResetMs = record.lastResetMs) (Guard L past now) :=
    .read fun s hs => ⟨hs, rfl⟩
  refine .bind hmint fun _ => ?_
  refine .bind (build_preserves (fun n => onFlash_preserves hcalm ⟨trivial, rfl⟩))
    fun frame => ?_
  refine bind hread fun record => ?_
  refine bind (storePeer_keeps hL rfl) fun _ => ?_
  refine .bind (indexPeer_preserves (hcalm.mono fun _ hop => peerIndexOp_calm hop)) fun _ => ?_
  exact Preserves.pure

lemma acknowledgeFrame_keeps :
    Preserves (Guard L past now) (acknowledgeFrame me message) :=
  build_preserves (fun _ => onFlash_preserves (guard_calm hL) ⟨trivial, rfl⟩)

lemma acknowledge_keeps : Preserves (Guard L past now) (acknowledge me message) := by
  unfold acknowledge
  split_ifs
  · refine .observe fun known => ?_
    cases known with
    | none => exact pure fun s hs => hs.1
    | some record =>
      have hack : Preserves (fun s => Guard L past now s ∧
          (s.durable.peerRecord message.sender).lastResetMs = record.lastResetMs)
          (acknowledgeFrame me message) :=
        build_preserves (fun _ => onFlash_preserves (guard_record hL) ⟨trivial, rfl⟩)
      have hrem : (record.rememberAcknowledged message.id).lastResetMs =
          record.lastResetMs := by
        unfold PeerRecord.rememberAcknowledged
        split_ifs <;> rfl
      refine .bind (hack.mono ?_ (fun _ _ => id) fun s hs => hs.1) fun ack => ?_
      · rintro s ⟨hs, hknown⟩
        refine ⟨hs, ?_⟩
        unfold Flash.peerRecord
        rw [← hknown]
        rfl
      · exact bind (storePeer_keeps hL hrem) fun _ => Preserves.pure
  · exact .pure

end

def Acted (message : LeafMessage) (log : List (FlashOp × Fault)) : Prop :=
  (message.sender, message.timestamp) ∈ marks log

def Torn (message : LeafMessage) (events : List LeafEvent) (log : List (FlashOp × Fault)) : Prop :=
  (∃ e ∈ log, deletesSession message.sender e.1) ∨ (∃ p, .sessionReset p ∈ events) →
    Acted message log

lemma Acted.append (h : Acted message log) (more) : Acted message (log ++ more) := by
  unfold Acted
  rw [marks_append]
  exact mem_append_left _ h

lemma torn_grows (message events) : Grows message.sender (Torn message events) := by
  intro log op fault hop h hwhy
  apply Acted.append
  apply h
  rcases hwhy with ⟨e, he, hdel⟩ | hreport
  · rcases mem_append.1 he with hold | hnew
    · exact .inl ⟨e, hold, hdel⟩
    rw [mem_singleton.1 hnew, hop] at hdel
    cases hdel
  · exact .inr hreport

lemma Torn.quiet
    (h : Torn message events log) (hq : ∀ p, .sessionReset p ∈ events' → .sessionReset p ∈ events) :
    Torn message events' log :=
  fun hwhy => h (hwhy.imp_right fun ⟨p, hp⟩ => ⟨p, hq p hp⟩)

lemma onReset_spec
    (hheard : signedUnder = .fresh → ¬Stale message.timestamp now) :
    Triple (fun s => Guard (Torn message []) past now s ∧
        record = s.durable.peerRecord message.sender)
      (onReset me message payload signedUnder record)
      (fun r s => Guard (Torn message r.2) past now s ∧
        (s.durable.peerRecord message.sender).lastResetMs = r.1.lastResetMs)
      (Guard (Torn message []) past now) := by
  have hkeep : ∀ events, (∀ p, .sessionReset p ∉ events) →
      Triple (fun s => Guard (Torn message []) past now s ∧
          record = s.durable.peerRecord message.sender)
        (pure (record, events) : LeafM (PeerRecord × List LeafEvent))
        (fun r s => Guard (Torn message r.2) past now s ∧
          (s.durable.peerRecord message.sender).lastResetMs = r.1.lastResetMs)
        (Guard (Torn message []) past now) := by
    intro events hnone
    refine .pure fun s hs => ⟨⟨hs.1.1, hs.1.2.quiet fun p hp => absurd hp (hnone p)⟩, ?_⟩
    rw [hs.2]
  unfold onReset
  split_ifs with hundated hreset hunspent
  · exact hkeep _ (by simp)
  · -- The mark is written first, then the session goes.
    set marked := { record.rememberReset message.timestamp with keyPackageSent := false }
    have hsign : signedUnder = .fresh := by
      by_contra hne
      exact hundated ⟨hreset, hne⟩
    have hlast : marked.lastResetMs = message.timestamp := rfl
    have hmark : Triple (fun s => Guard (Torn message []) past now s ∧
          record = s.durable.peerRecord message.sender)
        (onFlash (.markReset message.sender marked))
        (fun _ s => (ResetsSpent past now s ∧ Acted message s.log) ∧
          (s.durable.peerRecord message.sender).lastResetMs = marked.lastResetMs)
        (Guard (Torn message []) past now) := by
      have hspent : ∀ s fault, ResetsSpent past now s →
          record = s.durable.peerRecord message.sender →
          ResetsSpent past now (s.after effect (.markReset message.sender marked) fault) := by
        intro s fault hs hrec
        refine hs.mark ?_ ?_ fault
        · rw [← hrec, hlast]
          exact of_decide_eq_true hunspent
        rw [hlast]
        exact hheard hsign
      apply Triple.operate
      · rintro s ⟨hs, hrec⟩
        refine ⟨⟨hspent s .done hs.1 hrec, ?_⟩, ?_⟩
        · exact mem_filterMap.2 ⟨(.markReset message.sender marked, .done),
            mem_append_right _ (mem_singleton_self _), rfl⟩
        show ((get (s.durable.peers.insert message.sender marked) message.sender).getD
          .new).lastResetMs = _
        rw [get_insert_self]
        rfl
      · rintro s fault ⟨hs, hrec⟩ -
        exact ⟨hspent s fault hs.1 hrec, torn_grows message [] s.log _ fault rfl hs.2⟩
    have hforg : Preserves (fun s => (ResetsSpent past now s ∧ Acted message s.log) ∧
        (s.durable.peerRecord message.sender).lastResetMs = marked.lastResetMs)
        (forgetSession me message.sender) := by
      apply forgetSession_preserves
      rintro s op fault hop ⟨⟨hs, hacted⟩, ht⟩
      have hquiet := sessionDelete_quiet hop
      refine ⟨⟨resetsSpent_quiet s op fault hquiet hs, hacted.append _⟩, ?_⟩
      rwa [peerRecord_quiet hquiet]
    refine .bind hmark fun _ => ?_
    refine .bind (hforg.within fun s hs => ⟨hs.1.1, fun _ => hs.1.2⟩) fun _ => ?_
    exact .pure fun s hs => ⟨⟨hs.1.1, fun _ => hs.1.2⟩, hs.2⟩
  · exact hkeep _ (by simp)
  · exact hkeep _ (by simp)

lemma verifyControlFrame_heard
    (h : verifyControlFrame message now undated = .ok .fresh) : ¬Stale message.timestamp now := by
  intro hstale
  unfold Stale at hstale
  unfold verifyControlFrame at h
  split at h
  · cases h
  · cases h
  · cases h
  rename_i signer covered _
  by_cases hsigned : signer = some message.sender
  · rw [if_pos hsigned] at h
    cases covered with
    | fresh =>
      simp only [hstale] at h
      cases h
    | undated =>
      simp only at h
      split_ifs at h
      cases h
    | neither => cases h
  · rw [if_neg hsigned] at h
    cases h

def evicted (me : LeafIdentity) (f : Flash) (message : LeafMessage) (nowUnixSecs : ℕ) :
    Option String :=
  match message.content, verifyControlFrame message nowUnixSecs .admitted with
  | .keyPackage (some payload), .ok _ =>
    if payload.userId = message.sender ∧ message.sender ∉ f.peerIndex ∧
        maxPeers ≤ f.peerIndex.length then victim me f
    else none
  | _, _ => none

lemma evicted_victim (hc : message.content = .keyPackage (some payload))
    (hsign : verifyControlFrame message now .admitted = .ok signedUnder)
    (huser : payload.userId = message.sender) (hnew : message.sender ∉ f.peerIndex)
    (hfull : maxPeers ≤ f.peerIndex.length) (hv : victim me f = some v) :
    evicted me f message now = some v := by
  unfold evicted
  rw [hc, hsign]
  simp only
  rw [if_pos ⟨huser, hnew, hfull⟩, hv]

lemma admitPeer_keeps (hP : ∀ s, P s → Guard (Torn message []) past now s)
    (hspar : ∀ s v, P s → message.sender ∉ s.durable.peerIndex →
      maxPeers ≤ s.durable.peerIndex.length → victim me s.durable = some v → Spared past now v s) :
    Triple P (admitPeer me message.sender) (fun _ => Guard (Torn message []) past now)
      (Guard (Torn message []) past now) := by
  have hgrows := torn_grows message []
  have hcalm : Keeps (Calm message.sender) (Guard (Torn message []) past now) :=
    guard_calm hgrows
  apply admitPeer_spec me hP (hcalm.mono fun _ hop => peerIndexOp_calm hop)
    (D := fun v s => (Guard (Torn message []) past now s ∧ Spared past now v s) ∧
      v ≠ message.sender)
  · intro s v hs hnew hfull hv
    refine ⟨⟨hP s hs, hspar s v hs hnew hfull hv⟩, ?_⟩
    rintro rfl
    exact hnew (mem_of_find?_eq_some hv)
  · intro v
    apply forgetPeer_keeps
    rintro s op fault hop ⟨⟨hs, hsp⟩, hne⟩
    have hother (hop) : (Guard (Torn message []) past now (s.after effect op fault) ∧
          Spared past now v (s.after effect op fault)) ∧ v ≠ message.sender :=
      ⟨⟨hcalm s op fault hop hs, spared_quiet s op fault hop.1 hsp⟩, hne⟩
    cases hop with
    | session h => exact hother (sessionDelete_calm h hne)
    | keyPackage h => exact hother (keyPackageOp_calm h)
    | record =>
      refine ⟨⟨⟨hs.1.deletePeer hsp, hgrows s.log _ fault rfl hs.2⟩, ?_⟩, hne⟩
      intro t hmem
      rw [marks_after fun _ _ h => by cases h] at hmem
      exact hsp t hmem
  · exact fun v s hs => hs.1.1

lemma onKeyPackage_spec (hc : message.content = .keyPackage body) :
    Triple (fun s => Guard (Torn message []) past now s ∧
        ∀ v ∈ evicted me s.durable message now, Spared past now v s)
      (onKeyPackage me message body now reference)
      (fun handled => Guard (Torn message handled.events) past now)
      (Guard (Torn message []) past now) := by
  refine .lift_bind (fun signedUnder hsign => ?_) fun s hs => hs.1
  cases body with
  | none => exact .raise fun s hs => hs.1
  | some payload =>
    by_cases huser : payload.userId = message.sender
    · simp only [if_pos huser]
      have hadms : Triple (fun s => Guard (Torn message []) past now s ∧
            ∀ v ∈ evicted me s.durable message now, Spared past now v s)
          (admitPeer me message.sender) (fun _ => Guard (Torn message []) past now)
          (Guard (Torn message []) past now) :=
        admitPeer_keeps (fun s hs => hs.1) fun s v hs hnew hfull hv =>
          hs.2 v (evicted_victim hc hsign huser hnew hfull hv)
      refine .bind hadms fun _ => ?_
      refine .observe fun held => ?_
      refine .bind (onReset_spec fun hfresh => ?_) fun answer => ?_
      · subst hfresh
        exact verifyControlFrame_heard hsign
      obtain ⟨record, events⟩ := answer
      have hgrows := torn_grows message events
      have hback : ∀ s, Guard (Torn message events) past now s →
          Guard (Torn message []) past now s :=
        fun s hs => ⟨hs.1, hs.2.quiet nofun⟩
      have hdone : ∀ frames, Triple (Guard (Torn message events) past now)
          (pure ⟨frames, events ++ [.peerAdvertised message.sender]⟩ : LeafM Handled)
          (fun handled => Guard (Torn message handled.events) past now)
          (Guard (Torn message []) past now) := by
        intro frames
        refine .pure fun s hs => ⟨hs.1, hs.2.quiet fun p hp => ?_⟩
        simpa using hp
      refine .bind ((storePeer_keeps hgrows rfl).mono (fun _ => id) (fun _ _ => id)
        hback) fun _ => ?_
      split_ifs
      · exact hdone []
      exact .bind ((keyPackageFrame_keeps hgrows).within hback) fun frame => hdone [frame]
    · simp only [if_neg huser]
      exact .raise fun s hs => hs.1

lemma KeepsQuietly.torn (h : KeepsQuietly (Guard (Torn message []) past now) m) :
    Triple (Guard (Torn message []) past now) m
      (fun handled => Guard (Torn message handled.events) past now)
      (Guard (Torn message []) past now) :=
  h.mono (fun _ => id)
    (fun _ _ hs => ⟨hs.1.1, hs.1.2.quiet fun p hp => absurd hp (hs.2 p)⟩) fun _ => id

lemma dispatch_spec :
    Triple (fun s => Guard (Torn message []) past now s ∧
        ∀ v ∈ evicted me s.durable message now, Spared past now v s)
      (dispatch me message now reference opened)
      (fun r => Guard (Torn message r.1.events) past now) (Guard (Torn message []) past now) := by
  have htalk : Keeps (TalkOp message.sender) (Guard (Torn message []) past now) :=
    (guard_calm (torn_grows message [])).mono fun _ hop => talkOp_calm hop
  have hplain (m : LeafM Handled) (hm : KeepsQuietly (Guard (Torn message []) past now) m) :
      Triple (fun s => Guard (Torn message []) past now s ∧
          ∀ v ∈ evicted me s.durable message now, Spared past now v s)
        (do
          let handled ← m
          pure (handled, true)) (fun r => Guard (Torn message r.1.events) past now)
        (Guard (Torn message []) past now) :=
    .bind (hm.torn.pre (fun _ hs => hs.1)) fun _ => .pure fun _ => id
  have hignored (reason : String) (s : Part Flash FlashOp)
      (hs : Guard (Torn message []) past now s) :
      Guard (Torn message (ignored reason).events) past now s :=
    ⟨hs.1, hs.2.quiet fun p hp => by simp [ignored] at hp⟩
  unfold dispatch
  cases hc : message.content with
  | keyPackage body =>
    exact .bind (onKeyPackage_spec hc) fun _ => .pure fun _ => id
  | welcome body => exact hplain _ (onWelcome_keeps me htalk)
  | encrypted body => exact hplain _ (onEncrypted_keeps me htalk)
  | sessionConfirmProbe => exact hplain _ (onProbe_keeps me htalk)
  | sessionConfirmAck => exact .pure fun s hs => hignored _ s hs.1
  | unprefixed => exact .pure fun s hs => hignored _ s hs.1

def forgets (me : LeafIdentity) (f : Flash) : LeafCall → Option String
  | .unpair peer _ => some peer
  | .handle message now _ _ =>
    if message.recipient = me.address ∧ ¬answered f message then evicted me f message now else none
  | _ => none

lemma handle_spec (message reference opened) :
    Triple (fun s => Guard (Torn message []) past now s ∧
        ∀ v ∈ forgets me s.durable (.handle message now reference opened), Spared past now v s)
      (handle me message now reference opened)
      (fun handled => Guard (Torn message handled.events) past now)
      (Guard (Torn message []) past now) := by
  refine .bind (readAll_spec.within fun s hs => hs.1) fun f => ?_
  by_cases hother : message.recipient ≠ me.address
  · rw [if_pos hother]
    exact .pure fun s hs =>
      ⟨hs.1.1.1, hs.1.1.2.quiet fun p hp => by simp [ignored] at hp⟩
  rw [if_neg hother]
  by_cases hans : answered f message
  · rw [if_pos hans]
    have hack : Preserves (Guard (Torn message []) past now) (acknowledgeFrame me message) :=
      acknowledgeFrame_keeps (torn_grows message [])
    refine .bind (hack.pre (fun s hs => hs.1.1)) fun ack => ?_
    exact .pure fun s hs => ⟨hs.1, hs.2.quiet fun p hp => by simp at hp⟩
  rw [if_neg hans]
  refine .bind (dispatch_spec.pre ?_) fun r => ?_
  · rintro s ⟨⟨hs, hev⟩, rfl⟩
    refine ⟨hs, fun v hv => hev v ?_⟩
    simp only [forgets]
    rwa [if_pos ⟨not_not.1 hother, hans⟩]
  obtain ⟨handled, proven⟩ := r
  have hback : ∀ s, Guard (Torn message handled.events) past now s →
      Guard (Torn message []) past now s :=
    fun s hs => ⟨hs.1, hs.2.quiet (by simp)⟩
  cases proven with
  | false => exact .pure fun s hs => hs
  | true =>
    have hack : Preserves (Guard (Torn message handled.events) past now)
        (attempt (acknowledge me message)) :=
      (acknowledge_keeps (torn_grows message handled.events)).attempt
    refine .bind (hack.within hback) fun answer => ?_
    rcases answer with e | (_ | ack)
    · exact .pure fun s hs => ⟨hs.1, hs.2.quiet fun p hp => by simpa using hp⟩
    · exact .pure fun s hs => hs
    · exact .pure fun s hs => hs

lemma unpair_spec {peer} :
    Triple (fun s => ResetsSpent past now s ∧ Spared past now peer s) (unpair me peer)
      (fun _ => ResetsSpent past now) (ResetsSpent past now) := by
  have hforg : Preserves (fun s => ResetsSpent past now s ∧ Spared past now peer s)
      (forgetPeer me peer) := by
    apply forgetPeer_keeps
    rintro s op fault hop ⟨hs, hsp⟩
    have hother (hq : Quiet op) : ResetsSpent past now (s.after effect op fault) ∧
        Spared past now peer (s.after effect op fault) :=
      ⟨resetsSpent_quiet s op fault hq hs, spared_quiet s op fault hq hsp⟩
    cases hop with
    | session h => exact hother (sessionDelete_quiet h)
    | keyPackage h => exact hother (keyPackageOp_calm (q := peer) h).1
    | record =>
      refine ⟨hs.deletePeer hsp, fun t hmem => ?_⟩
      rw [marks_after fun _ _ h => by cases h] at hmem
      exact hsp t hmem
  refine .bind (hforg.mono (fun _ => id) (fun _ _ hs => hs.1) fun s hs => hs.1) fun _ => ?_
  refine Preserves.bind Preserves.read fun index => ?_
  split_ifs
  · exact onFlash_preserves resetsSpent_quiet trivial
  · exact .pure

end

variable (me : LeafIdentity) {past : List (String × ℤ)} {now : ℕ} {s : Part Flash FlashOp}

def LeafEvent.isReset : LeafEvent → Bool
  | .sessionReset _ => true
  | _ => false

/-- The reset a frame caused: something of its sender's session was erased, or a
reset was reported. -/
def tornDown (r : LeafReport) : List (String × ℤ) :=
  match r.call with
  | .handle message _ _ _ =>
    if (r.log.any fun e => deletesSession message.sender e.1) || r.events.any LeafEvent.isReset then
      [(message.sender, message.timestamp)]
    else []
  | _ => []

/-- A call deletes no peer record whose mark still counts: the peer was never
reset, or its last reset is too old to be heard again. -/
def MarksOutlived (w : LeafWorld) (op : LeafOp) : Prop :=
  ∀ v ∈ forgets me w.flash op.call, (w.flash.peerRecord v).lastResetMs = 0 ∨
    Stale (w.flash.peerRecord v).lastResetMs op.call.now

instance (me : LeafIdentity) (w : LeafWorld) (op : LeafOp) : Decidable (MarksOutlived me w op) :=
  inferInstanceAs (Decidable (∀ v ∈ forgets me w.flash op.call, _ ∨ _))

structure RunSpent (w : LeafWorld) (reports : List LeafReport) : Prop where
  spent : ResetsSpent (marks (operations reports)) w.clock ⟨w.flash, []⟩
  caused : (reports.flatMap tornDown).Sublist (marks (operations reports))

lemma ResetsSpent.later
    (h : ResetsSpent past now s) (hn : now ≤ now') : ResetsSpent past now' s where
  spent p t hmem :=
    ⟨(h.spent p t hmem).1, (h.spent p t hmem).2.imp_right fun hstale => hstale.mono le_rfl hn⟩
  nonneg := h.nonneg
  rising := h.rising

lemma ResetsSpent.settle
    (h : ResetsSpent past now s) : ResetsSpent (past ++ marks s.log) now ⟨s.durable, []⟩ := by
  have hlog : past ++ marks s.log ++ marks [] = past ++ marks s.log := append_nil _
  constructor
  · intro p t hmem
    rw [hlog] at hmem
    exact h.spent p t hmem
  · exact h.nonneg
  rw [hlog]
  exact h.rising

lemma spared_of_outlived (hs : ResetsSpent past now s)
    (h : (s.durable.peerRecord v).lastResetMs = 0 ∨ Stale (s.durable.peerRecord v).lastResetMs now) :
    Spared past now v s := by
  intro t hmem
  obtain ⟨hpos, hle | hstale⟩ := hs.spent v t hmem
  · rcases h with hzero | hold
    · omega
    · exact hold.mono hle le_rfl
  · exact hstale

lemma tornDown_sublist
    (h : Torn message (LeafReport.events ⟨.handle message now reference opened, outcome, log⟩) log) :
    (tornDown ⟨.handle message now reference opened, outcome, log⟩).Sublist (marks log) := by
  unfold tornDown
  simp only
  split_ifs with hwhy
  · apply singleton_sublist.2
    apply h
    rw [Bool.or_eq_true, any_eq_true, any_eq_true] at hwhy
    refine hwhy.imp id ?_
    rintro ⟨event, hmem, hreset⟩
    cases event with
    | sessionReset p => exact ⟨p, hmem⟩
    | _ => cases hreset
  · exact nil_sublist _

lemma perform_spent {me} {op} (hs : ResetsSpent past op.call.now ⟨f, []⟩)
    (hkeep : ∀ v ∈ forgets me f op.call, Spared past op.call.now v ⟨f, []⟩) :
    ResetsSpent past op.call.now (run me f op).2 ∧
      (tornDown ⟨op.call, (run me f op).1, (run me f op).2.log⟩).Sublist
        (marks (run me f op).2.log) := by
  obtain ⟨call, faults⟩ := op
  have hgrows : Grows "" fun _ => True := fun _ _ _ _ _ => trivial
  have hcalm : Keeps (Calm "") (Guard (fun _ => True) past call.now) := guard_calm hgrows
  cases call with
  | keyPackageFrame peer now reference =>
    have hcall : Preserves (Guard (fun _ => True) past now)
        (perform me (.keyPackageFrame peer now reference)) :=
      .bind (keyPackageFrame_keeps hgrows) fun _ => .pure
    exact ⟨(Triple.run hcall faults ⟨hs, trivial⟩).1, nil_sublist _⟩
  | sealContent peer now =>
    have hcall : Preserves (Guard (fun _ => True) past now) (perform me (.sealContent peer now)) :=
      .bind (sealContent_preserves me (hcalm.mono fun _ hop => talkOp_calm hop)) fun _ => .pure
    exact ⟨(Triple.run hcall faults ⟨hs, trivial⟩).1, nil_sublist _⟩
  | unpair peer now =>
    have hcall : Triple (fun s => ResetsSpent past now s ∧ Spared past now peer s)
        (perform me (.unpair peer now)) (fun _ => ResetsSpent past now) (ResetsSpent past now) :=
      bind unpair_spec fun _ => Preserves.pure
    exact ⟨Triple.run hcall faults ⟨hs, hkeep peer rfl⟩, nil_sublist _⟩
  | handle message now reference opened =>
    have htorn : Torn message [] [] := by
      rintro (⟨e, he, -⟩ | ⟨p, hp⟩)
      · cases he
      · cases hp
    have hstart : Guard (Torn message []) past now ⟨f, []⟩ ∧
        ∀ v ∈ forgets me f (.handle message now reference opened), Spared past now v ⟨f, []⟩ :=
      ⟨⟨hs, htorn⟩, hkeep⟩
    have hcall := handle_spec message reference opened faults ⟨f, []⟩ hstart
    show ResetsSpent past now (handle me message now reference opened faults ⟨f, []⟩).2 ∧
      (tornDown ⟨_, (handle me message now reference opened faults ⟨f, []⟩).1,
        (handle me message now reference opened faults ⟨f, []⟩).2.log⟩).Sublist
        (marks (handle me message now reference opened faults ⟨f, []⟩).2.log)
    cases hr : handle me message now reference opened faults ⟨f, []⟩ with
    | mk out s =>
      rw [hr] at hcall
      cases out <;> exact ⟨hcall.1, tornDown_sublist hcall.2⟩

lemma runSpent_step (w op past)
    (h : RunSpent w past) (hc : w.clock ≤ op.call.now ∧ MarksOutlived me w op) :
    RunSpent (step me w op).1 (past ++ (step me w op).2) := by
  have hs : ResetsSpent (marks (operations past)) op.call.now ⟨w.flash, []⟩ := h.spent.later hc.1
  have hspar : ∀ v ∈ forgets me w.flash op.call,
      Spared (marks (operations past)) op.call.now v ⟨w.flash, []⟩ :=
    fun v hv => spared_of_outlived hs (hc.2 v hv)
  obtain ⟨hspent, hcaus⟩ := perform_spent hs hspar
  have hops : marks (operations (past ++ (step me w op).2)) =
      marks (operations past) ++ marks (run me w.flash op).2.log := by
    simp [operations, step, marks_append]
  constructor
  · rw [hops]
    show ResetsSpent _ (max w.clock op.call.now) ⟨(run me w.flash op).2.durable, []⟩
    rw [max_eq_right hc.1]
    exact hspent.settle
  · rw [hops, flatMap_append]
    apply h.caused.append
    show ([(⟨op.call, (run me w.flash op).1, (run me w.flash op).2.log⟩ : LeafReport)].flatMap
      tornDown).Sublist _
    rw [flatMap_singleton]
    exact hcaus

lemma runSpent_new : RunSpent .new [] where
  spent := ⟨nofun, fun _ => le_rfl, Pairwise.nil⟩
  caused := nil_sublist _

/-- At non-decreasing device times, the resets frames cause rise strictly peer by
peer: none is caused twice, and none stamped at or before one that was caused. -/
theorem resets_act_once (ops : List LeafOp) (hc : AlongSteps (step me)
      (fun w op => w.clock ≤ op.call.now ∧ MarksOutlived me w op) .new ops) :
    ((runSteps (step me) .new ops).2.flatMap tornDown).Pairwise
      fun a b => a.1 = b.1 → a.2 < b.2 := by
  have h := runSteps_invariant (I := RunSpent) (runSpent_step me) hc runSpent_new
  rw [nil_append] at h
  have hrise := h.spent.rising.sublist (sublist_append_left _ _)
  exact hrise.sublist h.caused

section

def resetIdentity : LeafIdentity := ⟨"d", fun _ => true, fun _ => true⟩

def sampleReset : LeafMessage :=
  { id := "m", sender := "p", recipient := "d", timestamp := 100000, requiresAck := false,
    signature := .made (some "p") .fresh,
    content := .keyPackage (some ⟨"p", true, [1], [1]⟩) }

def resetAt (now : ℕ) : LeafOp := ⟨.handle sampleReset now "r" .refused, fun _ => .done⟩

def unpairAt (now : ℕ) : LeafOp := ⟨.unpair "p" now, fun _ => .done⟩

end

theorem resets_act_once_replayed :
    ((runSteps (step resetIdentity) .new
        [resetAt 100, resetAt 101, unpairAt 259301, resetAt 259302]).2.flatMap tornDown).Pairwise
      (fun a b => a.1 = b.1 → a.2 < b.2) ∧
    (runSteps (step resetIdentity) .new
      [resetAt 100, resetAt 101, unpairAt 259301, resetAt 259302]).2.flatMap tornDown =
      [("p", 100000)] :=
  ⟨resets_act_once resetIdentity _ (by decide +kernel), by decide +kernel⟩

/-- Unpairing deletes the mark, so the captured reset is acted on again. -/
theorem reset_acts_twice_after_unpair :
    (runSteps (step resetIdentity) .new
      [resetAt 100, unpairAt 101, resetAt 102]).2.flatMap tornDown =
      [("p", 100000), ("p", 100000)] := by
  decide +kernel

end OfflineProtocol.LeafDevice
