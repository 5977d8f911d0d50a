import OfflineProtocol.SendSettled

/-! The send window of a peer. How many frames are on their way to a peer over the
mesh is not kept anywhere: it is read off the outbox. -/
namespace OfflineProtocol
open KeyedTable EventTrace Option List OutboxConfig

namespace SendEngine

def inWindow (peer : PeerId) (e : OutboxEntry) : Bool :=
  e.message.requiresAck && !isSessionControlFrame e.message && inFlightTo peer e

def windowLoad (s : SendEngine) (peer : PeerId) : ℕ := (values s.outbox).countP (inWindow peer)

def movesOntoMesh (host : SendHost) (override : Option TransportType) (s : SendEngine)
    (e : OutboxEntry) : Bool :=
  !isSessionControlFrame e.message && decide (0 < e.attemptCount) && !overMesh e.lastTransport &&
    overMesh (s.sendForced e.message (host.answers e.message.id) override)

/-- An entry moves onto the mesh only where all its recipient's entries fit the window. -/
def MovesFit (host : SendHost) (override : Option TransportType) (s : SendEngine) : Prop :=
  ∀ e ∈ values s.outbox, s.movesOntoMesh host override e = true →
    s.backlog e.message.recipient ≤ peerSendWindow

instance (host : SendHost) (override : Option TransportType) (s : SendEngine) :
    Decidable (MovesFit host override s) := by
  dsimp only [MovesFit]
  infer_instance

/-- The window of `p` is kept, and no resend of the operation in progress can break it:
either none moves onto the mesh or all entries fit. -/
structure Fits (host : SendHost) (override : Option TransportType) (p : PeerId)
    (s : SendEngine) : Prop where
  load : s.windowLoad p ≤ peerSendWindow
  moves : (∀ i e, get s.outbox i = some e → e.message.recipient = p →
      s.movesOntoMesh host override e = false) ∨ s.backlog p ≤ peerSendWindow

lemma enqueueWithDelay_outbox (now : ℕ) (m retryCount delayMs) (s : SendEngine) :
    (s.enqueueWithDelay now m retryCount delayMs).outbox = s.outbox := by
  unfold enqueueWithDelay
  split
  · rfl
  · rfl

lemma enqueue_outbox (config : OutboxConfig) (now : ℕ) (m retryCount) (s : SendEngine) :
    (s.enqueue config now m retryCount).outbox = s.outbox :=
  enqueueWithDelay_outbox now m retryCount _ s

@[simp] lemma offerResendToMesh_outbox (m a accepted)
    (s : SendEngine) : (s.offerResendToMesh m a accepted).outbox = s.outbox := by
  unfold offerResendToMesh
  split
  · rfl
  · rfl

lemma ensureAckRegistration_outbox (config : OutboxConfig) (now : ℕ) (a : CarrierAnswer) (m)
    (s : SendEngine) : (s.ensureAckRegistration config now a m).outbox = s.outbox := by
  unfold ensureAckRegistration
  split
  · rfl
  · rfl

variable {m : OutboundMessage} {s s' : SendEngine} {p : PeerId}
  {host : SendHost} {override : Option TransportType}
variable (config : OutboxConfig) (ack : AckFrame) {e : OutboxEntry}

lemma windowLoad_le_inFlight {s : SendEngine} {p} :
    s.windowLoad p ≤ s.meshFramesInFlightTo p := by
  refine countP_mono_left fun e _ he => ?_
  rw [inWindow, Bool.and_eq_true] at he
  exact he.2

lemma recipient_of_inWindow (h : inWindow p e = true) : e.message.recipient = p := by
  simp only [inWindow, inFlightTo, Bool.and_eq_true, decide_eq_true_eq] at h
  exact h.2.1.2

lemma windowLoad_le_backlog {s : SendEngine} {p} : s.windowLoad p ≤ s.backlog p :=
  countP_mono_left fun _ _ he => decide_eq_true (recipient_of_inWindow he)

lemma windowLoad_le (h : ∀ i e', get s'.outbox i = some e' → inWindow p e' = true →
      ∃ e, get s.outbox i = some e ∧ inWindow p e = true) : s'.windowLoad p ≤ s.windowLoad p :=
  countP_values_le h

lemma windowLoad_le_of_sub (h : ∀ i e, get s'.outbox i = some e → get s.outbox i = some e) :
    s'.windowLoad p ≤ s.windowLoad p :=
  windowLoad_le fun i e' he' hin => ⟨e', h i e' he', hin⟩

lemma backlog_le (h : ∀ i e', get s'.outbox i = some e' →
    ∃ e, get s.outbox i = some e ∧ e.message = e'.message) : s'.backlog p ≤ s.backlog p := by
  refine countP_values_le fun i e' he' hrec => ?_
  obtain ⟨e, he, hm⟩ := h i e' he'
  exact ⟨e, he, by rw [hm]; exact hrec⟩

lemma sendForced_congr (hl : s'.links = s.links) (m a)
    (forced) : s'.sendForced m a forced = s.sendForced m a forced := by
  have hvia : s'.sendViaTransport m a = s.sendViaTransport m a := by
    funext t
    simp only [sendViaTransport, hl]
  cases forced with
  | some t => simp only [sendForced, hvia]
  | none => simp only [sendForced, send, meshTransportFor, sendSelected, hl, hvia]

lemma sendForced_takes
    (h : s.sendForced m a forced = some via) : s.sendViaTransport m a via = true := by
  have hsel : s.sendSelected m a = some via → s.sendViaTransport m a via = true :=
    fun h => find?_some (p := s.sendViaTransport m a) h
  cases forced with
  | some t =>
    simp only [sendForced] at h
    split at h
    · rename_i htakes
      exact some.inj h ▸ htakes
    · cases h
  | none =>
    simp only [sendForced, send] at h
    split at h
    · split at h
      · rename_i htakes
        exact some.inj h ▸ htakes
      · exact hsel h
    · exact hsel h

lemma governs_of_overMesh
    (h : s.sendForced m a forced = some via) (hmesh : overMesh (some via) = true)
    (hreq : m.requiresAck = true) (hkind : isSessionControlFrame m = false) :
    s.peerWindowGoverns m = true := by
  have hin : via ∈ meshTransports := by
    cases via <;> first | exact absurd hmesh (by decide) | decide
  have htakes := sendForced_takes h
  simp only [sendViaTransport, Bool.and_eq_true, Bool.or_eq_true, decide_eq_true_eq] at htakes
  have hlink := htakes.2.resolve_left (fun hno => hno hin)
  have hsome : (s.meshTransportFor m.recipient).isSome = true :=
    find?_isSome.2 ⟨via, hin, decide_eq_true hlink⟩
  simp [peerWindowGoverns, hreq, hkind, hsome]

lemma Fits.sub (h : Fits host override p s) (hl : s'.links = s.links)
    (hsub : ∀ i e, get s'.outbox i = some e → get s.outbox i = some e) : Fits host override p s' where
  load := (windowLoad_le_of_sub hsub).trans h.load
  moves := by
    refine h.moves.imp (fun hstay i e he hrec => ?_) fun hb =>
      (backlog_le fun i e he => ⟨e, hsub i e he, rfl⟩).trans hb
    rw [movesOntoMesh, sendForced_congr hl]
    exact hstay i e (hsub i e he) hrec

lemma Fits.same (h : Fits host override p s) (hl : s'.links = s.links)
    (ho : s'.outbox = s.outbox) : Fits host override p s' :=
  h.sub hl fun _ _ he => ho ▸ he

def ResentOutbox (host : SendHost) (override : Option TransportType) (m : OutboundMessage)
    (s : SendEngine) (outbox : Table MessageId OutboxEntry) : Prop :=
  outbox = s.outbox ∨
    ∃ via attempt e, get s.outbox m.id = some e ∧ s.peerWindowAdmits m = true ∧
      s.sendForced m (host.answers m.id) override = some via ∧
      outbox = s.outbox.insert m.id (markedEntry host m (some via) (attempt + 1) (some e))

/-- The place a resent entry takes is its own, or one that was free. -/
lemma Fits.resent_load (h : Fits host override p s) (hf : Filed s.outbox m)
    (he : get s.outbox m.id = some e) (hadmits : s.peerWindowAdmits m = true)
    (hsend : s.sendForced m (host.answers m.id) override = some via)
    (ho : s'.outbox = s.outbox.insert m.id (markedEntry host m (some via) (attempt + 1) (some e)))
    (hstay : s.movesOntoMesh host override e = false ∨ m.recipient ≠ p) :
    s'.windowLoad p ≤ peerSendWindow := by
  have hm := hf.same e he
  have hother : ∀ i e', i ≠ m.id → get s'.outbox i = some e' → get s.outbox i = some e' := by
    intro i e' hi he'
    rw [ho, get_insert_ne hi] at he'
    exact he'
  have hown : ∀ e', get s'.outbox m.id = some e' →
      e' = markedEntry host m (some via) (attempt + 1) (some e) := by
    intro e' he'
    rw [ho, get_insert_self] at he'
    exact (some.inj he').symm
  by_cases hnew : inWindow p (markedEntry host m (some via) (attempt + 1) (some e)) = true
  · have hrec : m.recipient = p := recipient_of_inWindow hnew
    simp only [inWindow, inFlightTo, markedEntry, Bool.and_eq_true, Bool.not_eq_true'] at hnew
    obtain ⟨⟨hreq, hkind⟩, -, hmesh⟩ := hnew
    have hgov := governs_of_overMesh hsend hmesh hreq hkind
    have hstays := hstay.resolve_right (fun hne => hne hrec)
    simp only [peerWindowAdmits, hgov, he, any_some, Bool.not_true, Bool.false_or,
      Bool.or_eq_true, decide_eq_true_eq] at hadmits
    rcases hadmits with htried | hroom
    · -- an entry that was out already stays where it was: it has its place
      have hover : overMesh e.lastTransport = true := by
        simp only [movesOntoMesh, hm, hkind, hsend, htried, hmesh, decide_true, Bool.not_false,
          Bool.and_true, Bool.true_and, Bool.not_eq_false'] at hstays
        exact hstays
      refine le_trans (windowLoad_le fun i e' he' hin => ?_) h.load
      by_cases hi : i = m.id
      · refine ⟨e, hi ▸ he, ?_⟩
        simp [inWindow, inFlightTo, hm, hreq, hkind, htried, hrec, hover]
      · exact ⟨e', hother i e' hi he', hin⟩
    · calc s'.windowLoad p ≤ s.windowLoad p + 1 :=
            countP_values_le_succ fun i e' hi he' hin => ⟨e', hother i e' hi he', hin⟩
        _ ≤ s.meshFramesInFlightTo p + 1 := Nat.succ_le_succ windowLoad_le_inFlight
        _ ≤ peerSendWindow := hrec ▸ hroom
  · refine le_trans (windowLoad_le fun i e' he' hin => ?_) h.load
    by_cases hi : i = m.id
    · rw [hown e' (hi ▸ he')] at hin
      exact absurd hin hnew
    · exact ⟨e', hother i e' hi he', hin⟩

lemma Fits.resent (h : Fits host override p s) (hf : Filed s.outbox m) (hl : s'.links = s.links)
    (hr : ResentOutbox host override m s s'.outbox) : Fits host override p s' := by
  rcases hr with ho | ⟨via, attempt, e, he, hadmits, hsend, ho⟩
  · exact h.same hl ho
  have hm := hf.same e he
  have hback : ∀ i e', get s'.outbox i = some e' →
      ∃ e, get s.outbox i = some e ∧ e.message = e'.message := by
    intro i e' he'
    rw [ho, get_insert] at he'
    split at he'
    · rename_i hi
      exact ⟨e, hi ▸ he, by rw [hm, ← some.inj he']; rfl⟩
    · exact ⟨e', he', rfl⟩
  rcases h.moves with hstay | hb
  · refine ⟨h.resent_load hf he hadmits hsend ho ?_, .inl fun i e' he' hrec => ?_⟩
    · by_cases hrec : m.recipient = p
      · exact .inl (hstay m.id e he (hm ▸ hrec))
      · exact .inr hrec
    rw [movesOntoMesh, sendForced_congr hl]
    rw [ho, get_insert] at he'
    split at he'
    · -- the entry just sent is where another resend would take it
      rw [← some.inj he']
      simp only [markedEntry, hsend]
      cases overMesh (some via) <;> simp
    · exact hstay i e' he' hrec
  · have hb' : s'.backlog p ≤ peerSendWindow := (backlog_le hback).trans hb
    exact ⟨windowLoad_le_backlog.trans hb', .inr hb'⟩

lemma marked_resent {t : SendEngine} (ho : t.outbox = s.outbox) (hf : Filed s.outbox m)
    (a attempt) (hadmits : s.peerWindowAdmits m = true)
    (hsend : s.sendForced m (host.answers m.id) override = some via) :
    ResentOutbox host override m s
      ((t.markMessageSent host m (some via) (attempt + 1)).offerResendToMesh m a true).outbox := by
  rw [offerResendToMesh_outbox]
  cases hreq : m.requiresAck with
  | false =>
    left
    simp [markMessageSent, hreq, ho]
  | true =>
    right
    obtain ⟨e, he⟩ := exists_get_of_mem (hf.present hreq)
    refine ⟨via, attempt, e, he, hadmits, hsend, ?_⟩
    rw [markMessageSent_filed host hreq (ho ▸ he)]
    exact congrArg (AList.insert m.id _) ho

lemma tryFlushSendVia_resent {host attemptCount} (hf : Filed s.outbox m) :
    ResentOutbox host override m s
      (s.tryFlushSendVia config host m attemptCount override).1.outbox := by
  simp only [tryFlushSendVia, ensureOutboxEntry_filed host hf]
  split
  · exact .inl (enqueue_outbox config host.now m attemptCount s)
  split
  · rw [holdForPeerWindow_filed host hf]
    exact .inl rfl
  rename_i hadmits
  split
  · rename_i via hsend
    have hslot : ((s.emit (.transmitted m.id (some via))).ensureAckRegistration config host.now
        (host.answers m.id) m).outbox = s.outbox :=
      ensureAckRegistration_outbox config host.now (host.answers m.id) m
        (s.emit (.transmitted m.id (some via)))
    exact marked_resent hslot hf _ attemptCount (by simpa using hadmits) hsend
  · left
    rw [enqueue_outbox, offerResendToMesh_outbox]
    rfl

lemma processRetryEntry_resent {host} {r : RetryEntry} (hf : Filed s.outbox r.message) :
    ResentOutbox host none r.message s (s.processRetryEntry config host r).outbox := by
  simp only [processRetryEntry, ensureOutboxEntry_filed host hf]
  split
  · exact .inl (enqueueWithDelay_outbox host.now r.message r.retryCount config.initialDelayMs s)
  split
  · rw [holdForPeerWindow_filed host hf]
    exact .inl rfl
  rename_i hadmits
  split
  · rename_i via hsend
    have hslot := ensureAckRegistration_outbox config host.now (host.answers r.message.id)
      r.message (s.emit (.transmitted r.message.id (some via)))
    refine marked_resent ?_ hf _ r.retryCount (by simpa using hadmits) hsend
    split
    · exact hslot
    · exact hslot
  · left
    have href : (((s.emit (.transmitted r.message.id none)).offerResendToMesh r.message
        (host.answers r.message.id) false).enqueue config host.now r.message
        (r.retryCount + 1)).outbox = s.outbox := by
      rw [enqueue_outbox, offerResendToMesh_outbox]
      rfl
    split
    · exact href
    · exact href

lemma tryFlushSendVia_fits (h : Fits host override p s) (hf : Filed s.outbox m) :
    Fits host override p (s.tryFlushSendVia config host m attemptCount override).1 :=
  h.resent hf (tryFlushSendVia_touches config host attemptCount override hf).links
    (tryFlushSendVia_resent config hf)

lemma redrive_fits (before)
    (hout : ∀ i s, (before i s).outbox = s.outbox) (hlinks : ∀ i s, (before i s).links = s.links)
    (h : Fits host override p s) (hbatch : ∀ m ∈ batch, Filed s.outbox m.1) :
    Fits host override p (s.redrive config host override before batch).1 := by
  induction batch generalizing s with
  | nil => exact h
  | cons m rest ih =>
    have hm : Filed (before m.1.id s).outbox m.1 := by
      rw [hout]
      exact hbatch m (.head _)
    have hbefore : Fits host override p (before m.1.id s) := h.same (hlinks _ _) (hout _ _)
    refine ih (tryFlushSendVia_fits config hbefore hm) fun m' hm' => ?_
    apply (tryFlushSendVia_touches config host m.2 override hm).filed
    rw [hout]
    exact hbatch m' (.tail _ hm')

lemma requeue_fits
    (h : Fits host override p s) : Fits host override p (s.requeue config host overflow) := by
  refine foldlRecOn (motive := fun t => Fits host override p t) _ _ h fun t ht m _ => ?_
  exact ht.same (enqueue_touches m.1 t config host.now m.2).links
    (enqueue_outbox config host.now m.1 m.2 t)

lemma Tidy.filed_batch (ht : Tidy past s) (order) (pick) (places) :
    ∀ m ∈ (((visit s.outbox order).filter pick).map fun e =>
      (e.2.message, e.2.attemptCount)).take places, Filed s.outbox m.1 := by
  intro m hm
  obtain ⟨e, he, rfl⟩ := mem_map.1 (mem_of_mem_take hm)
  exact (ht.carried_entry (mem_visit.1 (mem_filter.1 he).1)).filed

lemma flushOutboxForPeerVia_fits (peer) (ht : Tidy past s) (h : Fits host override p s) :
    Fits host override p (s.flushOutboxForPeerVia config host peer override) := by
  have hsh := cancelProbe_shrinks host.order peer s
  simp only [flushOutboxForPeerVia]
  generalize s.cancelProbeStateForParkedPeer host.order peer = c at hsh ⊢
  have hunpr : Shrinks c { c with dmUnreachableParks := c.dmUnreachableParks.erase peer } :=
    { Shrinks.refl c with }
  have ht1 := ht.shrinks (hsh.trans hunpr)
  have hstart : Fits host override p { c with dmUnreachableParks := c.dmUnreachableParks.erase peer } :=
    h.same (hsh.trans hunpr).links (hsh.trans hunpr).outbox
  have hsent := redrive_fits config retryRemove (fun _ _ => rfl) (fun _ _ => rfl) hstart
    (ht1.filed_batch host.order (fun e => decide (e.2.message.recipient = peer) &&
      c.restsInOutbox e.2.message.id) flushBatchLimit)
  split
  · split
    · exact (requeue_fits config hsent).same rfl rfl
    · exact requeue_fits config hsent
  · exact requeue_fits config hsent

lemma flushOutboxAll_fits (ht : Tidy past s) (h : Fits host none p s) :
    Fits host none p (s.flushOutboxAll config host) := by
  have hsh := cancelAll_shrinks host.order ((visit s.dmUnreachableParks host.peerOrder).map Prod.fst) s
  unfold flushOutboxAll
  generalize ((visit s.dmUnreachableParks host.peerOrder).map Prod.fst).foldl
    (fun s peer => s.cancelProbeStateForParkedPeer host.order peer) s = c at hsh ⊢
  have hdrain := hsh.trans (drained_shrinks c)
  have ht1 := ht.shrinks hsh
  have ht2 := ht.shrinks hdrain
  refine .same (requeue_fits config (redrive_fits config _ (fun _ _ => rfl) (fun _ _ => rfl)
    (h.same hdrain.links hdrain.outbox) fun m hm => ?_)) rfl rfl
  rcases mem_append.1 (mem_of_mem_take hm) with hm | hm
  · obtain ⟨r, hr, rfl⟩ := mem_map.1 hm
    exact ((ht1.carried_retry (mem_heapOrder hr)).shrinks (drained_shrinks c)).filed
  obtain ⟨e, he, rfl⟩ := mem_map.1 hm
  exact (ht2.carried_entry (mem_visit.1 (mem_filter.1 he).1)).filed

lemma flushPeerWindows_fits (ht : Tidy past s) (h : Fits host none p s) :
    Fits host none p (s.flushPeerWindows config host) := by
  refine (foldlRecOn (motive := fun t => Tidy past t ∧ Fits host none p t) _ _ ⟨ht, h⟩
    fun t htf peer _ => ⟨flushPeerWindow_tidy config host peer htf.1, ?_⟩).2
  have hline := (flushHeldLine_rule config host peer (fun _ h _ => h.same rfl rfl)
    (fun _ _ h _ hc => tryFlushSendVia_fits config (h.same rfl rfl) hc.filed)
    (t.heldFor peer).length flushBatchLimit htf.1 htf.2).2
  simp only [flushPeerWindow]
  split
  · exact hline.same rfl rfl
  · exact hline

lemma processRetries_fits (places) (ht : Tidy past s)
    (h : Fits host none p s) : Fits host none p (s.processRetries config host places) := by
  refine (processRetries_rule config host (fun {s r} _ h _ hc => ?_) places ht h).2
  have hsh := retryRemove_shrinks r.message.id s
  exact (h.same hsh.links hsh.outbox).resent hc.filed
    (processRetryEntry_touches config host hc.filed).links
    (processRetryEntry_resent config hc.filed)

section
variable (host : SendHost) (m : OutboundMessage) (id : MessageId) (stored : Bool)
  (report : SendReport) (s : SendEngine) (p : PeerId)

lemma forget_sub :
    ∀ i e, get (s.forgetOutboundMessage id).outbox i = some e → get s.outbox i = some e := by
  intro i e he
  exact (of_get_erase he).2

lemma makeOutboxRoom_sub {s : SendEngine} :
    ∀ i e, get (s.makeOutboxRoom host newcomer).1.outbox i = some e → get s.outbox i = some e := by
  unfold makeOutboxRoom
  split
  · exact fun i e he => he
  rename_i id e _
  have hsh := reportConnectionRequest_shrinks host.now id "outbox_capacity_exceeded"
    ((s.forgetOutboundMessage id).emit (.messageFailed id "Outbox capacity exceeded" e.attemptCount))
  intro i e' he'
  have he'' := congrArg (get · i) hsh.outbox
  exact forget_sub id s i e' (he''.symm.trans he')

lemma roomFor_sub :
    ∀ i e, get (s.roomFor host m).outbox i = some e → get s.outbox i = some e := by
  unfold roomFor
  split
  · exact makeOutboxRoom_sub host
  · exact fun i e he => he

lemma failMaxRetries_sub {s : SendEngine} :
    ∀ i e, get (s.failMaxRetries host id retryCount).outbox i = some e → get s.outbox i = some e := by
  have hsh := reportConnectionRequest_shrinks host.now id "max_retries_exceeded"
    (s.emit (.messageFailed id "Max retries exceeded" retryCount))
  intro i e he
  have he' := forget_sub id _ i e he
  rw [hsh.outbox] at he'
  exact he'

lemma parkUnreachableDm_outbox (recipient) (attemptCount) (stored) (s : SendEngine) :
    (s.parkUnreachableDm host id recipient attemptCount stored).outbox = s.outbox := by
  simp only [parkUnreachableDm]
  split
  · rfl
  split
  · rfl
  · exact enqueueWithDelay_outbox ..

lemma handleTimedOutAck_sub (pending) :
    ∀ i e, get (s.handleTimedOutAck config host pending).outbox i = some e →
      get s.outbox i = some e := by
  unfold handleTimedOutAck
  split
  · rename_i extended hext
    have ho : extended.outbox = s.outbox := by
      split at hext
      · unfold extendWhileQueued at hext
        split at hext
        · cases hext
        split at hext
        · cases hext
        · rw [← some.inj hext]
      · cases hext
    exact fun i e he => ho ▸ he
  · split
    · unfold handleMaxRetriesExceeded
      split
      · split
        · rw [parkUnreachableDm_outbox]
          exact fun i e he => he
        · exact failMaxRetries_sub host pending.1
      · exact failMaxRetries_sub host pending.1
    · unfold handleAckTimeoutRetry
      split
      · rename_i e _
        have ho := enqueue_outbox config host.now e.message pending.2.retryCount s
        split
        · exact fun i e he => ho ▸ he
        · exact fun i e he => ho ▸ he
      · exact forget_sub pending.1 _

lemma expireOutboxEntry_sub (expired) :
    ∀ i e, get (s.expireOutboxEntry host expired).outbox i = some e → get s.outbox i = some e := by
  rw [expireOutboxEntry_outbox]
  exact forget_sub expired.1 s

lemma foldl_sub {α : Type} {f : SendEngine → α → SendEngine} {turns : List α}
    (hf : ∀ s a, ∀ i e, get (f s a).outbox i = some e → get s.outbox i = some e) {s : SendEngine} :
    ∀ i e, get (turns.foldl f s).outbox i = some e → get s.outbox i = some e :=
  foldlRecOn (motive := fun t => ∀ i e, get t.outbox i = some e → get s.outbox i = some e)
    turns f (fun _ _ he => he) fun t ht a _ i e he => ht i e (hf t a i e he)

lemma processTimedOutAcks_load : (s.processTimedOutAcks config host).windowLoad p ≤ s.windowLoad p :=
  windowLoad_le_of_sub (foldl_sub (handleTimedOutAck_sub config host))

lemma cleanupExpiredEntries_load : (s.cleanupExpiredEntries config host).windowLoad p ≤ s.windowLoad p :=
  windowLoad_le_of_sub (foldl_sub (expireOutboxEntry_sub host))

lemma parkRelayPushedDm_load : (s.parkRelayPushedDm host id stored).windowLoad p ≤ s.windowLoad p := by
  unfold parkRelayPushedDm
  split
  · split
    · exact le_rfl
    -- the flag says nothing about the carrier
    refine windowLoad_le fun i e' he' hin => ?_
    rw [parkUnreachableDm_outbox] at he'
    have he'' : get (modify s.outbox id fun e => { e with relayPushed := true }) i = some e' := he'
    rw [get_modify] at he''
    split at he''
    · rename_i hi
      obtain ⟨e, he, rfl⟩ := map_eq_some_iff.1 he''
      exact ⟨e, hi ▸ he, hin⟩
    · exact ⟨e', he'', hin⟩
  · exact le_rfl

lemma handleUntrackedReport_outbox : (s.handleUntrackedReport host id report).outbox = s.outbox := by
  unfold handleUntrackedReport
  split
  · split
    · rfl
    unfold handleRecipientUnreachableForMessage
    split
    · rfl
    rw [parkUnreachableDm_outbox]
    split
    · rfl
    · rfl
  · rfl

lemma onTransportSendFailed_load :
    (s.onTransportSendFailed host id report).windowLoad p ≤ s.windowLoad p := by
  have hreport : ∀ t : SendEngine, t.outbox = s.outbox →
      (t.handleUntrackedReport host id report).windowLoad p ≤ s.windowLoad p := by
    intro t ho
    apply windowLoad_le_of_sub
    rw [handleUntrackedReport_outbox, ho]
    exact fun i e he => he
  unfold onTransportSendFailed
  split
  · exact parkRelayPushedDm_load host id _ s p
  split
  · exact hreport s rfl
  split
  · exact hreport _ rfl
  split
  · exact le_rfl
  · exact hreport s rfl

lemma ensureOutboxEntry_load : (s.ensureOutboxEntry host m).windowLoad p ≤ s.windowLoad p := by
  unfold ensureOutboxEntry
  split
  · exact le_rfl
  refine windowLoad_le fun i e' he' hin => ?_
  rcases of_get_insert he' with ⟨-, rfl⟩ | ⟨-, he''⟩
  · -- an entry without an attempt takes no place
    simp [inWindow, inFlightTo] at hin
  · exact ⟨e', roomFor_sub host m s i e' he'', hin⟩

end

/-- A frame sent for the first time finds a place, where the window governs it. -/
lemma transmitFirst_load {host forced}
    (hroom : s.peerWindowGoverns m = true → s.meshFramesInFlightTo m.recipient < peerSendWindow)
    (h : s.windowLoad p ≤ peerSendWindow) :
    (s.transmitFirst config host m forced).windowLoad p ≤ peerSendWindow := by
  unfold transmitFirst
  split
  · rename_i via hsend
    have ho : ((s.emit (.transmitted m.id (some via))).handleSendSuccess config host m via).outbox =
        ((s.emit (.transmitted m.id (some via))).markMessageSent host m (some via) 1).outbox := by
      have hslot := ensureAckRegistration_outbox config host.now (host.answers m.id) m
        ((s.emit (.transmitted m.id (some via))).markMessageSent host m (some via) 1)
      simp only [handleSendSuccess]
      split
      · exact hslot
      · exact hslot
    cases hreq : m.requiresAck with
    | false =>
      refine le_trans (windowLoad_le_of_sub fun i e he => ?_) h
      rw [ho] at he
      simpa [markMessageSent, hreq, emit] using he
    | true =>
      have hget : ∀ i e, get ((s.emit (.transmitted m.id (some via))).handleSendSuccess config host m
          via).outbox i = some e → (i = m.id ∧ e.message = m ∧ e.lastTransport = some via) ∨
            (i ≠ m.id ∧ get s.outbox i = some e) := by
        intro i e he
        rw [ho] at he
        simp only [markMessageSent, hreq, Bool.not_true, Bool.false_eq_true, if_false] at he
        rw [get_insert] at he
        split at he
        · rename_i hi
          rw [← some.inj he]
          exact .inl ⟨hi, rfl, rfl⟩
        rename_i hi
        exact .inr ⟨hi, roomFor_sub host m (s.emit (.transmitted m.id (some via))) i e he⟩
      by_cases hnew : overMesh (some via) = true ∧ isSessionControlFrame m = false ∧ m.recipient = p
      · obtain ⟨hmesh, hkind, hrec⟩ := hnew
        have hfree := hroom (governs_of_overMesh hsend hmesh hreq hkind)
        calc SendEngine.windowLoad _ p ≤ s.windowLoad p + 1 :=
              countP_values_le_succ fun i e hi he hin => by
                rcases hget i e he with ⟨hi', -, -⟩ | ⟨-, he'⟩
                · exact absurd hi' hi
                · exact ⟨e, he', hin⟩
          _ ≤ s.meshFramesInFlightTo p + 1 := Nat.succ_le_succ windowLoad_le_inFlight
          _ ≤ peerSendWindow := hrec ▸ hfree
      · refine le_trans (windowLoad_le fun i e he hin => ?_) h
        rcases hget i e he with ⟨-, hmsg, hvia⟩ | ⟨-, he'⟩
        · refine absurd ⟨?_, ?_, ?_⟩ hnew
          · simp only [inWindow, inFlightTo, hvia, Bool.and_eq_true] at hin
            exact hin.2.2
          · simp only [inWindow, hmsg, Bool.and_eq_true, Bool.not_eq_true'] at hin
            exact hin.1.2
          rw [← hmsg]
          exact recipient_of_inWindow hin
        · exact ⟨e, he', hin⟩
  · have hfiled := ensureOutboxEntry_load host m (s.emit (.transmitted m.id none)) p
    refine le_trans (windowLoad_le_of_sub fun i e he => ?_) (hfiled.trans h)
    have ho := enqueue_outbox config host.now m 0
      (((s.emit (.transmitted m.id none)).ensureOutboxEntry host m).offerToMesh m)
    rw [handleSendFailure, ho] at he
    exact he

lemma dispatchAppMessage_load {host} (hnew : m.id ∉ s.outbox) (h : s.windowLoad p ≤ peerSendWindow) :
    (s.dispatchAppMessage config host m forced).windowLoad p ≤ peerSendWindow := by
  have hadms : ∀ i e, get ({ s with dispatched := m.id :: s.dispatched }.admitAppMessage host
      m).1.outbox i = some e → get s.outbox i = some e := by
    unfold admitAppMessage
    split
    · exact fun i e he => he
    · exact makeOutboxRoom_sub host
  simp only [dispatchAppMessage]
  generalize { s with dispatched := m.id :: s.dispatched }.admitAppMessage host m = admission
    at hadms ⊢
  have h1 : admission.1.windowLoad p ≤ peerSendWindow := (windowLoad_le_of_sub hadms).trans h
  split
  · have hsh := reportConnectionRequest_shrinks host.now m.id "outbox_capacity_exceeded"
      (admission.1.emit (.messageFailed m.id "Outbox capacity exceeded" 0))
    exact (windowLoad_le_of_sub fun i e he => (congrArg (get · i) hsh.outbox).symm.trans he).trans h1
  split
  · refine (windowLoad_le_of_sub fun i e he => ?_).trans
      ((ensureOutboxEntry_load host m admission.1 p).trans h1)
    have ho := enqueue_outbox config host.now m 0 (admission.1.ensureOutboxEntry host m)
    exact (congrArg (get · i) ho).symm.trans he
  split
  · exact (ensureOutboxEntry_load host m admission.1 p).trans h1
  rename_i hwaits
  have hsent : (admission.1.transmitFirst config host m forced).windowLoad p ≤ peerSendWindow := by
    refine transmitFirst_load config (fun hgov => ?_) h1
    have hnone : get admission.1.outbox m.id = none := by
      rw [get_eq_none_iff]
      intro hmem
      obtain ⟨e, he⟩ := exists_get_of_mem hmem
      exact hnew (mem_of_get (hadms m.id e he))
    simp only [waitsForPeerWindow, peerWindowAdmits, hgov, hnone, any_none,
      Bool.not_true, Bool.true_and, Bool.false_or, Bool.or_eq_true, Bool.not_eq_true',
      decide_eq_false_iff_not, not_or, not_not] at hwaits
    exact hwaits.2
  simp only [reportFirst]
  split
  · exact hsent
  · exact hsent

lemma dispatchInternalMessage_load {host}
    (hroom : s.peerWindowGoverns m = true → s.meshFramesInFlightTo m.recipient < peerSendWindow)
    (h : s.windowLoad p ≤ peerSendWindow) :
    (s.dispatchInternalMessage config host m).windowLoad p ≤ peerSendWindow := by
  simp only [dispatchInternalMessage]
  split
  · refine (windowLoad_le_of_sub fun i e he => ?_).trans ((ensureOutboxEntry_load host m
      { s with dispatched := m.id :: s.dispatched } p).trans h)
    have ho := enqueue_outbox config host.now m 0
      ({ s with dispatched := m.id :: s.dispatched }.ensureOutboxEntry host m)
    exact (congrArg (get · i) ho).symm.trans he
  · exact transmitFirst_load config hroom h

def ackOverride (host : SendHost) (s : SendEngine) (ack : AckFrame) : Option TransportType :=
  if ack.undecryptable then none else (get s.outbox ack.ackFor).bind (redriveVia host)

lemma handleUndecryptableAck_fits {id} (ht : Tidy past s)
    (h : Fits host none p s) : Fits host none p (s.handleUndecryptableAck config host id) := by
  unfold handleUndecryptableAck
  split
  · exact h
  rename_i e he
  split
  · exact h
  have hsh := resent_shrinks id s
  have hc := (ht.carried_entry he).shrinks hsh
  exact tryFlushSendVia_fits config (h.same rfl rfl) hc.filed

lemma delivered_fits (ht : Tidy past s)
    (he : get s.outbox ack.ackFor = some e) (h : Fits host (redriveVia host e) p s) :
    Fits host (redriveVia host e) p
      (((s.forgetOutboundMessage ack.ackFor).emit (.messageDelivered ack.ackFor
        (host.now - e.firstSentAt) ack.hopCount ack.transport)).flushOutboxForPeerVia config host
          e.message.recipient (redriveVia host e)) :=
  flushOutboxForPeerVia_fits config e.message.recipient
    (deliver_tidy ht (mem_of_get he) (host.now - e.firstSentAt) ack.hopCount ack.transport)
    (h.sub rfl (forget_sub ack.ackFor s))

lemma settlePending_fits (ht : Tidy past s)
    (he : get s.outbox ack.ackFor = some e) (h : Fits host (redriveVia host e) p s) :
    Fits host (redriveVia host e) p (s.settlePending config host ack pending) := by
  have hflush := delivered_fits config ack ht he h
  simp only [settlePending, he]
  split
  · exact hflush
  · exact h.sub rfl (forget_sub ack.ackFor s)

lemma settleDmWithoutPendingAck_fits (ht : Tidy past s)
    (hack : get s.pendingAcks ack.ackFor = none)
    (h : Fits host ((get s.outbox ack.ackFor).bind (redriveVia host)) p s) :
    Fits host ((get s.outbox ack.ackFor).bind (redriveVia host)) p
      (s.settleDmWithoutPendingAck config host ack) := by
  unfold settleDmWithoutPendingAck
  split
  · split
    · exact h
    rename_i e he
    simp only [he, bind_some] at h ⊢
    rw [← forget_without_slot hack]
    exact delivered_fits config ack ht he h
  · exact h

lemma handleAckMessage_fits (ht : Tidy past s) (h : Fits host (s.ackOverride host ack) p s) :
    Fits host (s.ackOverride host ack) p (s.handleAckMessage config host ack) := by
  simp only [handleAckMessage]
  split
  · exact h
  split
  · rename_i hundecryptable
    rw [ackOverride, if_pos hundecryptable] at h ⊢
    exact handleUndecryptableAck_fits config ht h
  rename_i hplain
  rw [ackOverride, if_neg hplain] at h ⊢
  split
  · rename_i pending hack
    obtain ⟨e, he⟩ := exists_get_of_mem (ht.acked _ (mem_of_get hack))
    simp only [he, bind_some] at h ⊢
    exact settlePending_fits config ack (ht.shrinks untracked_shrinks) he (h.same rfl rfl)
  · rename_i hack
    exact settleDmWithoutPendingAck_fits config ack (ht.shrinks untracked_shrinks) hack (h.same rfl rfl)

def resendsVia (host : SendHost) (s : SendEngine) : Op → Option (Option TransportType)
  | .ack frame => some (s.ackOverride host frame)
  | .flushPeer _ via => some via
  | .flushAll => some none
  | .flushWindows => some none
  | .processRetryQueue => some none
  | _ => none

def Op.unwindowed : Op → Option OutboundMessage
  | .dispatchInternal m false => some m
  | .sendSyncFrame m false => some m
  | _ => none

/-- What an operation needs for the windows to be kept: new ids, room for an internal
frame that goes over the mesh, and entries that move onto the mesh only to peers whose
entries all fit. -/
def KeepsWindows (s : SendEngine) (op : SendHost × Op) : Prop :=
  MintsNew s op ∧
    (∀ m ∈ op.2.unwindowed, s.peerWindowGoverns m = true →
      s.meshFramesInFlightTo m.recipient < peerSendWindow) ∧
    ∀ override ∈ s.resendsVia op.1 op.2, MovesFit op.1 override s

instance (s : SendEngine) (op : SendHost × Op) : Decidable (KeepsWindows s op) :=
  inferInstanceAs (Decidable (_ ∧ _ ∧ _))

lemma MovesFit.fits (h : MovesFit host override s) (hload : s.windowLoad p ≤ peerSendWindow) :
    Fits host override p s := by
  refine ⟨hload, ?_⟩
  by_cases hmoves : ∃ i e, get s.outbox i = some e ∧ e.message.recipient = p ∧
      s.movesOntoMesh host override e = true
  · obtain ⟨i, e, he, hrec, hm⟩ := hmoves
    exact .inr (hrec ▸ h e (mem_values_iff.2 ⟨i, he⟩) hm)
  refine .inl fun i e he hrec => ?_
  rw [Bool.eq_false_iff]
  exact fun hm => hmoves ⟨i, e, he, hrec, hm⟩

lemma perform_load (host op) (ht : Tidy past s)
    (hcond : KeepsWindows s (host, op)) (h : s.windowLoad p ≤ peerSendWindow) :
    (s.perform config host op).windowLoad p ≤ peerSendWindow := by
  obtain ⟨hnew, hroom, hmoves⟩ := hcond
  have hfresh : ∀ m, op.mints = some m → m.id ∉ s.outbox :=
    fun m hm => (ht.enter (hnew m hm)).2.outbox
  cases op with
  | dispatchPrepared m duplicate =>
    simp only [perform]
    split
    · exact h
    · exact dispatchAppMessage_load config (hfresh m rfl) h
  | dispatchPreparedVia m transport duplicate =>
    simp only [perform]
    split
    · exact h
    · exact dispatchAppMessage_load config (hfresh m rfl) h
  | dispatchInternal m duplicate =>
    cases duplicate with
    | true => exact h
    | false => exact dispatchInternalMessage_load config (hroom m rfl) h
  | sendSyncFrame m duplicate =>
    cases duplicate with
    | true => exact h
    | false => exact transmitFirst_load config (hroom m rfl) h
  | ack frame => exact (handleAckMessage_fits config frame ht ((hmoves _ rfl).fits h)).load
  | sendFailed id report => exact (onTransportSendFailed_load host id report s p).trans h
  | flushPeer peer via => exact (flushOutboxForPeerVia_fits config peer ht ((hmoves _ rfl).fits h)).load
  | flushAll => exact (flushOutboxAll_fits config ht ((hmoves _ rfl).fits h)).load
  | flushWindows => exact (flushPeerWindows_fits config ht ((hmoves _ rfl).fits h)).load
  | processRetryQueue => exact (processRetries_fits config _ ht ((hmoves _ rfl).fits h)).load
  | processTimedOutAcks => exact (processTimedOutAcks_load config host s p).trans h
  | cleanup => exact (cleanupExpiredEntries_load config host s p).trans h
  | forget id => exact (windowLoad_le_of_sub (forget_sub id s)).trans h
  | linksChanged links => exact h
  | welcomesChanged ids => exact h
  | trackConnectionRequest id recipient => exact h

/-- In every run whose operations keep the windows, from an outbox that keeps them, no
peer ever has more than its window of governed frames last sent over the mesh. -/
theorem windows_kept (restored : Table MessageId OutboxEntry)
    (hrestored : ∀ i e, get restored i = some e → e.message.id = i ∧ e.message.requiresAck = true)
    (hload : ∀ p, (restart restored).windowLoad p ≤ peerSendWindow) (ops : List (SendHost × Op))
    (hrun : AlongSteps (step config) KeepsWindows (restart restored) ops) (p : PeerId) :
    (runSteps (step config) (restart restored) ops).1.windowLoad p ≤ peerSendWindow := by
  refine (runSteps_invariant (I := fun s past => Tidy past s ∧ s.windowLoad p ≤ peerSendWindow)
    (fun t op _ hs hc => ?_) hrun ⟨restart_tidy hrestored, hload p⟩).2
  exact ⟨step_tidy config op hs.1 hc.1, perform_load config op.1 op.2 hs.1 hc hs.2⟩

def meshHost (now : ℕ) : SendHost where
  now := now
  answers _ :=
    { accepting := [.ble], selection := [.ble], reachable := true, mediaAcks := 0, failureToken := "" }
  order := []
  peerOrder := []
  availableTransports := [.ble]
  queuedMessageIds := []
  batchShare := 20

def sealedFrame (n : ℕ) : OutboundMessage :=
  { id := toString n, recipient := "bob", priority := .medium, requiresAck := true, kind := .sealed }

def linkedOps : List (SendHost × Op) :=
  [(meshHost 0, .linksChanged [(.ble, "bob")]), (meshHost 1, .dispatchPrepared (sealedFrame 0) false),
    (meshHost 2, .dispatchInternal (sealedFrame 1) false), (meshHost 10001, .processTimedOutAcks),
    (meshHost 12000, .processRetryQueue)]

theorem windows_kept_linked :
    (runSteps (step default) (restart ∅) linkedOps).1.windowLoad "bob" = 2 ∧
      (runSteps (step default) (restart ∅) linkedOps).1.windowLoad "bob" ≤ peerSendWindow :=
  ⟨by decide +kernel, windows_kept default ∅ (nofun)
      (fun _ => Nat.zero_le _) linkedOps (by decide +kernel) "bob"⟩

def internalBurstOps : List (SendHost × Op) :=
  (meshHost 0, .linksChanged [(.ble, "bob")]) ::
    (range 17).map fun n => (meshHost (n + 1), .dispatchInternal (sealedFrame n) false)

/-- Internal frames alone take more than the window of a linked peer. -/
theorem internal_frames_exceed_window :
    ((runSteps (step default) empty internalBurstOps).1.meshTransportFor "bob").isSome = true ∧
      peerSendWindow < (runSteps (step default) empty internalBurstOps).1.windowLoad "bob" := by
  decide +kernel

end SendEngine

end OfflineProtocol
