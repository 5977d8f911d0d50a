import OfflineProtocol.SendFrames

/-! Every message settles at most once. -/
namespace OfflineProtocol
open KeyedTable EventTrace List Option

namespace OutboxEvent
variable {i : MessageId} {log es : List OutboxEvent}

def Settled (i : MessageId) (log : List OutboxEvent) : Prop := ∃ e ∈ log, e.settles i

def Orderly (log : List OutboxEvent) : Prop :=
  log.Pairwise fun e e' => ∀ i, e.settles i → ¬e'.settles i ∧ ¬e'.sends i

lemma settled_append : Settled i (log ++ es) ↔ Settled i log ∨ Settled i es := by
  unfold Settled
  simp only [mem_append, or_and_right, exists_or]

lemma settled_append_quiet
    (hes : ∀ e ∈ es, ∀ j, ¬e.settles j) : Settled i (log ++ es) ↔ Settled i log := by
  rw [settled_append]
  refine or_iff_left ?_
  rintro ⟨e, he, hi⟩
  exact hes e he i hi

lemma Orderly.append (h : Orderly log) (hset : ∀ e ∈ es, ∀ j, ¬e.settles j)
    (hsend : ∀ e ∈ es, ∀ j, e.sends j → ¬Settled j log) : Orderly (log ++ es) := by
  refine pairwise_append.2 ⟨h, ?_, ?_⟩
  · exact pairwise_of_forall_mem_list fun e he e' _ i hi => absurd hi (hset e he i)
  intro e he e' he' i hi
  exact ⟨hset e' he' i, fun hs => hsend e' he' i hs ⟨e, he, hi⟩⟩

lemma Orderly.concat (h : Orderly log) (hset : ∀ j, e.settles j → j = i)
    (hsend : ∀ j, ¬e.sends j) (hi : ¬Settled i log) : Orderly (log ++ [e]) := by
  refine pairwise_append.2 ⟨h, pairwise_singleton _ _, ?_⟩
  intro e' he' e'' he'' j hj
  obtain rfl := mem_singleton.1 he''
  refine ⟨fun hs => ?_, hsend j⟩
  rw [hset j hs] at hj
  exact hi ⟨e', he', hj⟩

end OutboxEvent

open OutboxEvent

namespace SendEngine

/-- What holds between operations, and along each of them, of the messages the engine
holds. `past` is what earlier operations emitted. -/
structure Tidy (past : List OutboxEvent) (s : SendEngine) : Prop where
  orderly : Orderly (past ++ s.log)
  gone : ∀ i, Settled i (past ++ s.log) → i ∉ s.outbox ∧ i ∉ s.retryQueue ∧ i ∉ s.pendingAcks
  filed : ∀ i e, get s.outbox i = some e → e.message.id = i ∧ e.message.requiresAck = true
  queued : ∀ i r, get s.retryQueue i = some r → r.message.id = i ∧ Filed s.outbox r.message
  acked : ∀ i, i ∈ s.pendingAcks → i ∈ s.outbox
  knownSettled : ∀ i, Settled i (past ++ s.log) → i ∈ s.dispatched
  knownOutbox : ∀ i, i ∈ s.outbox → i ∈ s.dispatched
  knownRetry : ∀ i, i ∈ s.retryQueue → i ∈ s.dispatched

structure Carried (past : List OutboxEvent) (s : SendEngine) (m : OutboundMessage) : Prop where
  unsettled : ¬Settled m.id (past ++ s.log)
  known : m.id ∈ s.dispatched
  filed : Filed s.outbox m

/-- Dispatched, but neither settled nor in a table. -/
structure Fresh (past : List OutboxEvent) (s : SendEngine) (m : OutboundMessage) : Prop where
  unsettled : ¬Settled m.id (past ++ s.log)
  known : m.id ∈ s.dispatched
  outbox : m.id ∉ s.outbox
  retry : m.id ∉ s.retryQueue
  acks : m.id ∉ s.pendingAcks

/-- From `s` to `s'` nothing was sent, settled or taken out of the outbox, and nothing
entered the retry queue or the table of acknowledgements. -/
structure Shrinks (s s' : SendEngine) : Prop where
  outbox : s'.outbox = s.outbox
  retry : ∀ i r, get s'.retryQueue i = some r → get s.retryQueue i = some r
  acks : ∀ i, i ∈ s'.pendingAcks → i ∈ s.pendingAcks
  links : s'.links = s.links
  dispatched : s'.dispatched = s.dispatched
  log : ∃ es, s'.log = s.log ++ es ∧ ∀ e ∈ es, (∀ j, ¬e.settles j) ∧ ∀ j, ¬e.sends j

variable {past : List OutboxEvent} {s : SendEngine}
variable (config : OutboxConfig) {order : List MessageId} (now : ℕ) (host : SendHost)
  (id : MessageId) (peer : PeerId) (via : Option TransportType) (ack : AckFrame)
variable {e : OutboxEntry} {i : MessageId}

section
variable (stored : Bool) {r : RetryEntry} (report : SendReport) (forced : Option TransportType)
  (override : Option TransportType) (newcomer : Option OutboundMessage)

lemma log_emit (s : SendEngine) (e) : past ++ (s.emit e).log = past ++ s.log ++ [e] :=
  (append_assoc _ _ _).symm

lemma settled_emit (s : SendEngine) (e) :
    Settled i (past ++ (s.emit e).log) ↔ Settled i (past ++ s.log) ∨ e.settles i := by
  rw [log_emit, settled_append]
  simp [Settled]

lemma Shrinks.refl (s) : Shrinks s s where
  outbox := rfl
  retry _ _ h := h
  acks _ h := h
  links := rfl
  dispatched := rfl
  log := ⟨[], (append_nil _).symm, nofun⟩

lemma Shrinks.trans (h : Shrinks s s') (h' : Shrinks s' s'') : Shrinks s s'' where
  outbox := h'.outbox.trans h.outbox
  retry i r hr := h.retry i r (h'.retry i r hr)
  acks i hi := h.acks i (h'.acks i hi)
  links := h'.links.trans h.links
  dispatched := h'.dispatched.trans h.dispatched
  log := by
    obtain ⟨es, hes, hq⟩ := h.log
    obtain ⟨fs, hfs, hq'⟩ := h'.log
    exact ⟨es ++ fs, by rw [hfs, hes, append_assoc], forall_mem_append.2 ⟨hq, hq'⟩⟩

lemma emit_shrinks {e} (hset : ∀ j, ¬e.settles j)
    (hsend : ∀ j, ¬e.sends j) : Shrinks s (s.emit e) :=
  { Shrinks.refl s with
    log := ⟨[e], rfl, forall_mem_singleton.2 ⟨hset, hsend⟩⟩ }

lemma retryRemove_shrinks (s) : Shrinks s (s.retryRemove id) :=
  { Shrinks.refl s with
    retry := fun i r hr => by
      exact (of_get_erase hr).2 }

lemma removeAck_shrinks {s} : Shrinks s (s.removeAck id) :=
  { Shrinks.refl s with
    acks := fun _ hi => (mem_erase_iff.1 hi).2 }

lemma untracked_shrinks {id s} :
    Shrinks s { s with pendingConnectionRequests := s.pendingConnectionRequests.erase id } :=
  { Shrinks.refl s with }

lemma resent_shrinks (id) (s : SendEngine) : Shrinks s (({ s with
    undecryptableResent := id :: s.undecryptableResent }.retryRemove id).removeAck id) := by
  have hnoted : Shrinks s { s with undecryptableResent := id :: s.undecryptableResent } :=
    { Shrinks.refl s with }
  exact (hnoted.trans (retryRemove_shrinks id _)).trans (removeAck_shrinks id)

lemma reportConnectionRequest_shrinks (reason)
    (s) : Shrinks s (s.reportConnectionRequest now id reason) := by
  unfold reportConnectionRequest
  split
  · exact .refl s
  split
  · exact untracked_shrinks.trans (emit_shrinks (fun _ h => h) fun _ h => h)
  · exact untracked_shrinks

lemma Shrinks.settled (h : Shrinks s s') (i) :
    Settled i (past ++ s'.log) ↔ Settled i (past ++ s.log) := by
  obtain ⟨es, hes, hq⟩ := h.log
  rw [hes, ← append_assoc]
  exact settled_append_quiet fun e he => (hq e he).1

lemma Shrinks.mem_retry (h : Shrinks s s') (hi : i ∈ s'.retryQueue) : i ∈ s.retryQueue := by
  obtain ⟨r, hr⟩ := exists_get_of_mem hi
  exact mem_of_get (h.retry i r hr)

lemma Shrinks.filed (h : Shrinks s s') (hf : Filed s.outbox m) : Filed s'.outbox m where
  present hreq := by
    rw [h.outbox]
    exact hf.present hreq
  same e he := hf.same e (h.outbox ▸ he)

section
variable (h : Tidy past s)
include h

lemma Tidy.shrinks (hs : Shrinks s s') : Tidy past s' where
  orderly := by
    obtain ⟨es, hes, hq⟩ := hs.log
    rw [hes, ← append_assoc]
    exact h.orderly.append (fun e he => (hq e he).1) fun e he j hj => absurd hj ((hq e he).2 j)
  gone i hi := by
    obtain ⟨h1, h2, h3⟩ := h.gone i ((hs.settled i).1 hi)
    rw [hs.outbox]
    exact ⟨h1, fun hr => h2 (hs.mem_retry hr), fun ha => h3 (hs.acks i ha)⟩
  filed i e he := h.filed i e (hs.outbox ▸ he)
  queued i r hr := by
    obtain ⟨hid, hf⟩ := h.queued i r (hs.retry i r hr)
    exact ⟨hid, hs.filed hf⟩
  acked i hi := by
    rw [hs.outbox]
    exact h.acked i (hs.acks i hi)
  knownSettled i hi := by
    rw [hs.dispatched]
    exact h.knownSettled i ((hs.settled i).1 hi)
  knownOutbox i hi := by
    rw [hs.dispatched]
    rw [hs.outbox] at hi
    exact h.knownOutbox i hi
  knownRetry i hi := by
    rw [hs.dispatched]
    exact h.knownRetry i (hs.mem_retry hi)

omit h in
lemma Carried.shrinks (h : Carried past s m) (hs : Shrinks s s') : Carried past s' m where
  unsettled hi := h.unsettled ((hs.settled m.id).1 hi)
  known := by
    rw [hs.dispatched]
    exact h.known
  filed := hs.filed h.filed

omit h in
lemma Touches.settled (ht : Touches m s s') (i) :
    Settled i (past ++ s'.log) ↔ Settled i (past ++ s.log) := by
  obtain ⟨es, hes, hc⟩ := ht.log
  rw [hes, ← append_assoc]
  exact settled_append_quiet fun e he => (hc e he).1

omit h in
lemma Carried.touches (h : Carried past s m') (ht : Touches m s s') : Carried past s' m' where
  unsettled hi := h.unsettled ((ht.settled m'.id).1 hi)
  known := by
    rw [ht.dispatched]
    exact h.known
  filed := ht.filed h.filed

lemma Tidy.touches (hm : Carried past s m) (ht : Touches m s s') : Tidy past s' where
  orderly := by
    obtain ⟨es, hes, hc⟩ := ht.log
    rw [hes, ← append_assoc]
    refine h.orderly.append (fun e he => (hc e he).1) fun e he j hj => ?_
    rw [(hc e he).2 j hj]
    exact hm.unsettled
  gone i hi := by
    have hi' := (ht.settled i).1 hi
    have hne : i ≠ m.id := fun he => hm.unsettled (he ▸ hi')
    obtain ⟨h1, h2, h3⟩ := h.gone i hi'
    simp only [← get_isSome_iff, ht.outbox i hne, ht.retry i hne, ht.acks i hne] at h1 h2 h3 ⊢
    exact ⟨h1, h2, h3⟩
  filed i e he := by
    obtain ⟨e0, he0, hmsg⟩ := ht.entry_back he
    rw [← hmsg]
    exact h.filed i e0 he0
  queued i r hr := by
    by_cases hi : i = m.id
    · subst hi
      rcases ht.retryOwn r hr with hold | hown
      · obtain ⟨hid, hf⟩ := h.queued m.id r hold
        exact ⟨hid, ht.filed hf⟩
      rw [hown]
      exact ⟨rfl, ht.filed hm.filed⟩
    · obtain ⟨hid, hf⟩ := h.queued i r ((ht.retry i hi).symm.trans hr)
      exact ⟨hid, ht.filed hf⟩
  acked i hi := by
    rw [ht.mem_outbox]
    by_cases hown : i = m.id
    · subst hown
      exact (ht.acksOwn hi).elim (h.acked m.id) id
    rw [← get_isSome_iff, ht.acks i hown, get_isSome_iff] at hi
    exact h.acked i hi
  knownSettled i hi := by
    rw [ht.dispatched]
    exact h.knownSettled i ((ht.settled i).1 hi)
  knownOutbox i hi := by
    rw [ht.dispatched]
    exact h.knownOutbox i ((ht.mem_outbox i).1 hi)
  knownRetry i hi := by
    rw [ht.dispatched]
    by_cases hown : i = m.id
    · rw [hown]
      exact hm.known
    rw [← get_isSome_iff, ht.retry i hown, get_isSome_iff] at hi
    exact h.knownRetry i hi

lemma Tidy.unsettled_of_mem (hi : i ∈ s.outbox) : ¬Settled i (past ++ s.log) :=
  fun hs => (h.gone i hs).1 hi

lemma Tidy.filed_entry (he : get s.outbox i = some e) : Filed s.outbox e.message where
  present _ := by
    rw [(h.filed i e he).1]
    exact mem_of_get he
  same e' he' := by
    rw [(h.filed i e he).1, he] at he'
    rw [some.inj he']

lemma Tidy.carried_entry (he : get s.outbox i = some e) : Carried past s e.message where
  unsettled := by
    rw [(h.filed i e he).1]
    exact h.unsettled_of_mem (mem_of_get he)
  known := by
    rw [(h.filed i e he).1]
    exact h.knownOutbox i (mem_of_get he)
  filed := h.filed_entry he

lemma Tidy.carried_retry (hr : get s.retryQueue i = some r) : Carried past s r.message where
  unsettled := by
    rw [(h.queued i r hr).1]
    exact fun hs => (h.gone i hs).2.1 (mem_of_get hr)
  known := by
    rw [(h.queued i r hr).1]
    exact h.knownRetry i (mem_of_get hr)
  filed := (h.queued i r hr).2

lemma Tidy.forget (id) : Tidy past (s.forgetOutboundMessage id) := by
  have hfiled : ∀ m, m.id ≠ id → Filed s.outbox m →
      Filed (s.forgetOutboundMessage id).outbox m := by
    intro m hne hf
    refine ⟨fun hreq => mem_erase_iff.2 ⟨hne, hf.present hreq⟩, fun e he => ?_⟩
    have he' : get (s.outbox.erase id) m.id = some e := he
    rw [get_erase_ne hne] at he'
    exact hf.same e he'
  refine
    { orderly := h.orderly
      gone := fun i hi => ?_
      filed := fun i e he => ?_
      queued := fun i r hr => ?_
      acked := fun i hi => ?_
      knownSettled := h.knownSettled
      knownOutbox := fun i hi => h.knownOutbox i (mem_erase_iff.1 hi).2
      knownRetry := fun i hi => h.knownRetry i (mem_erase_iff.1 hi).2 }
  · obtain ⟨h1, h2, h3⟩ := h.gone i hi
    exact ⟨fun hm => h1 (mem_erase_iff.1 hm).2, fun hm => h2 (mem_erase_iff.1 hm).2,
      fun hm => h3 (mem_erase_iff.1 hm).2⟩
  · exact h.filed i e (of_get_erase he).2
  · obtain ⟨hne, hr'⟩ := of_get_erase hr
    obtain ⟨hid, hf⟩ := h.queued i r hr'
    exact ⟨hid, hfiled r.message (hid.symm ▸ hne) hf⟩
  · obtain ⟨hne, hi'⟩ := mem_erase_iff.1 hi
    exact mem_erase_iff.2 ⟨hne, h.acked i hi'⟩

lemma Tidy.settle {e}
    (hset : ∀ j, e.settles j → j = i) (hsend : ∀ j, ¬e.sends j) (hi : ¬Settled i (past ++ s.log))
    (hknown : i ∈ s.dispatched) (houtbox : i ∉ s.outbox) (hretry : i ∉ s.retryQueue)
    (hacks : i ∉ s.pendingAcks) : Tidy past (s.emit e) := by
  have hsplit : ∀ j, Settled j (past ++ (s.emit e).log) → Settled j (past ++ s.log) ∨ j = i :=
    fun j hj => ((settled_emit s e).1 hj).imp_right (hset j)
  exact
    { h with
      orderly := by
        rw [log_emit]
        exact h.orderly.concat hset hsend hi
      gone := fun j hj => (hsplit j hj).elim (h.gone j) fun he => he ▸ ⟨houtbox, hretry, hacks⟩
      knownSettled := fun j hj => (hsplit j hj).elim (h.knownSettled j) fun he => he ▸ hknown }

lemma Tidy.giveUp (hmem : i ∈ s.outbox) {e : OutboxEvent}
    (hset : ∀ j, e.settles j → j = i) (hsend : ∀ j, ¬e.sends j) :
    Tidy past ((s.forgetOutboundMessage i).emit e) :=
  (h.forget i).settle hset hsend (h.unsettled_of_mem hmem) (h.knownOutbox i hmem)
    (fun hi => (mem_erase_iff.1 hi).1 rfl) (fun hi => (mem_erase_iff.1 hi).1 rfl)
    fun hi => (mem_erase_iff.1 hi).1 rfl

omit h in
lemma mem_outbox_of_victim {newcomer}
    (h : s.victim order newcomer = some v) : get s.outbox v.1 = some v.2 := by
  have hmem := (mem_insertionSort _).1 (mem_of_mem_head? h)
  exact mem_visit.1 (mem_filter.1 hmem).1

lemma makeOutboxRoom_tidy : Tidy past (s.makeOutboxRoom host newcomer).1 := by
  unfold makeOutboxRoom
  split
  · exact h
  rename_i id e hv
  have hgone := h.giveUp (mem_of_get (mem_outbox_of_victim hv))
    (e := .messageFailed id "Outbox capacity exceeded" e.attemptCount) (fun _ hj => hj.symm)
    fun _ hj => hj
  exact hgone.shrinks (reportConnectionRequest_shrinks host.now id _ _)

omit h in
lemma makeOutboxRoom_fresh
    (hf : Fresh past s m) : Fresh past (s.makeOutboxRoom host newcomer).1 m := by
  unfold makeOutboxRoom
  split
  · exact hf
  rename_i id e hv
  have hne : m.id ≠ id := fun he => hf.outbox (he ▸ mem_of_get (mem_outbox_of_victim hv))
  have hsh := reportConnectionRequest_shrinks host.now id "outbox_capacity_exceeded"
    ((s.forgetOutboundMessage id).emit (.messageFailed id "Outbox capacity exceeded" e.attemptCount))
  refine
    { unsettled := fun hs => ?_
      known := hsh.dispatched ▸ hf.known
      outbox := fun hi => ?_
      retry := fun hi => hf.retry (mem_erase_iff.1 (hsh.mem_retry hi)).2
      acks := fun hi => hf.acks (mem_erase_iff.1 (hsh.acks _ hi)).2 }
  · rcases (settled_emit _ _).1 ((hsh.settled m.id).1 hs) with hs' | hj
    · exact hf.unsettled hs'
    · exact hne hj.symm
  · have hi' : m.id ∈ s.outbox.erase id := by
      have := hsh.outbox ▸ hi
      exact this
    exact hf.outbox (mem_erase_iff.1 hi').2

omit h in
lemma roomFor_tidy {m} (h : Tidy past s) : Tidy past (s.roomFor host m) := by
  unfold roomFor
  split
  · exact makeOutboxRoom_tidy host none h
  · exact h

omit h in
lemma roomFor_fresh (hf : Fresh past s m) : Fresh past (s.roomFor host m) m := by
  unfold roomFor
  split
  · exact makeOutboxRoom_fresh host none hf
  · exact hf

omit h in
lemma Fresh.carried_of_unacked (hf : Fresh past s m) (hreq : m.requiresAck = false) :
    Carried past s m where
  unsettled := hf.unsettled
  known := hf.known
  filed := ⟨fun h => absurd (hreq.symm.trans h) (by simp), fun _ he => absurd (mem_of_get he) hf.outbox⟩

lemma Tidy.create (hf : Fresh past s m) (hreq : m.requiresAck = true) (he : e.message = m) :
    Tidy past { s with outbox := s.outbox.insert m.id e } ∧
      Carried past { s with outbox := s.outbox.insert m.id e } m := by
  have hfiled : ∀ m', m'.id ≠ m.id → Filed s.outbox m' → Filed (s.outbox.insert m.id e) m' := by
    intro m' hne hf'
    refine ⟨fun hreq' => (AList.mem_insert _).2 (.inr (hf'.present hreq')), fun e' he' => ?_⟩
    exact hf'.same e' ((get_insert_ne hne).symm.trans he')
  refine ⟨{ h with
      gone := fun i hi => ?_
      filed := fun i e' he' => ?_
      queued := fun i r hr => ?_
      acked := fun i hi => (AList.mem_insert _).2 (.inr (h.acked i hi))
      knownOutbox := fun i hi => ?_ },
    hf.unsettled, hf.known, fun _ => mem_of_get get_insert_self, fun e' he' => ?_⟩
  · obtain ⟨h1, h2, h3⟩ := h.gone i hi
    refine ⟨fun hmem => ?_, h2, h3⟩
    rcases (AList.mem_insert _).1 hmem with heq | hold
    · exact hf.unsettled (heq ▸ hi)
    · exact h1 hold
  · rcases of_get_insert he' with ⟨hi, rfl⟩ | ⟨-, he''⟩
    · rw [he, hi]
      exact ⟨rfl, hreq⟩
    · exact h.filed i e' he''
  · obtain ⟨hid, hfr⟩ := h.queued i r hr
    refine ⟨hid, hfiled r.message (fun heq => hf.retry ?_) hfr⟩
    rw [← heq, hid]
    exact mem_of_get hr
  · rcases (AList.mem_insert _).1 hi with heq | hold
    · exact heq ▸ hf.known
    · exact h.knownOutbox i hold
  · rw [← some.inj (get_insert_self.symm.trans he')]
    exact he

lemma ensureOutboxEntry_enters (hf : Fresh past s m) :
    Tidy past (s.ensureOutboxEntry host m) ∧ Carried past (s.ensureOutboxEntry host m) m := by
  have hnone := get_eq_none_iff.2 hf.outbox
  cases hreq : m.requiresAck with
  | false =>
    simp only [ensureOutboxEntry, hreq, Bool.not_false, Bool.true_or, if_true]
    exact ⟨h, hf.carried_of_unacked hreq⟩
  | true =>
    simp only [ensureOutboxEntry, hreq, hnone, Bool.not_true, isSome_none, Bool.or_self,
      Bool.false_eq_true, if_false]
    exact (roomFor_tidy host h).create (roomFor_fresh host hf) hreq rfl

omit h in
lemma markMessageSent_enters (attempt) (h : Tidy past s) (hf : Fresh past s m) :
    Tidy past (s.markMessageSent host m via attempt) ∧
      Carried past (s.markMessageSent host m via attempt) m := by
  cases hreq : m.requiresAck with
  | false =>
    simp only [markMessageSent, hreq, Bool.not_false, if_true]
    exact ⟨h, hf.carried_of_unacked hreq⟩
  | true =>
    simp only [markMessageSent, hreq, Bool.not_true, Bool.false_eq_true, if_false]
    exact (roomFor_tidy host h).create (roomFor_fresh host hf) hreq rfl

lemma transmitted_enters (hf : Fresh past s m) :
    Tidy past (s.emit (.transmitted m.id via)) ∧ Fresh past (s.emit (.transmitted m.id via)) m := by
  have hsettled : ∀ i, Settled i (past ++ (s.emit (.transmitted m.id via)).log) ↔
      Settled i (past ++ s.log) :=
    fun i => (settled_emit s _).trans (or_iff_left fun hj => hj)
  refine ⟨{ h with
      orderly := ?_
      gone := fun i hi => h.gone i ((hsettled i).1 hi)
      knownSettled := fun i hi => h.knownSettled i ((hsettled i).1 hi) },
    { hf with unsettled := fun hi => hf.unsettled ((hsettled m.id).1 hi) }⟩
  rw [log_emit]
  exact h.orderly.append (forall_mem_singleton.2 fun _ hj => hj)
    (forall_mem_singleton.2 fun _ hj => hj ▸ hf.unsettled)

lemma deferForAckCapacity_tidy
    (hf : Fresh past s m) : Tidy past (s.deferForAckCapacity config host m) := by
  obtain ⟨ht, hc⟩ := ensureOutboxEntry_enters host h hf
  exact ht.touches hc (enqueue_touches m _ config host.now 0)

lemma holdForPeerWindow_tidy (hf : Fresh past s m) : Tidy past (s.holdForPeerWindow host m) := by
  obtain ⟨ht, hc⟩ := ensureOutboxEntry_enters host h hf
  have hagain : s.holdForPeerWindow host m =
      (s.ensureOutboxEntry host m).holdForPeerWindow host m := by
    simp only [holdForPeerWindow, ensureOutboxEntry_filed host hc.filed]
  rw [hagain]
  exact ht.touches hc (holdForPeerWindow_touches host hc.filed)

lemma transmitFirst_tidy (hf : Fresh past s m) :
    Tidy past (s.transmitFirst config host m forced) := by
  unfold transmitFirst
  split
  · rename_i via _
    obtain ⟨h1, hf1⟩ := transmitted_enters (some via) h hf
    obtain ⟨h2, hc2⟩ := markMessageSent_enters host (some via) 1 h1 hf1
    have ht := ensureAckRegistration_touches config host.now (host.answers m.id) hc2.filed
    have h3 := h2.touches hc2 ht
    simp only [handleSendSuccess]
    split
    · exact h3
    · exact h3.touches (hc2.touches ht) (offerToMesh_touches m _)
  · obtain ⟨h1, hf1⟩ := transmitted_enters none h hf
    obtain ⟨h2, hc2⟩ := ensureOutboxEntry_enters host h1 hf1
    exact h2.touches hc2 ((offerToMesh_touches m _).trans (enqueue_touches m _ config host.now 0))

lemma admitAppMessage_tidy (hf : Fresh past s m) :
    Tidy past (s.admitAppMessage host m).1 ∧ Fresh past (s.admitAppMessage host m).1 m := by
  unfold admitAppMessage
  split
  · exact ⟨h, hf⟩
  · exact ⟨makeOutboxRoom_tidy host (some m) h, makeOutboxRoom_fresh host (some m) hf⟩

lemma Tidy.enter (hnew : m.id ∉ s.dispatched) :
    Tidy past { s with dispatched := m.id :: s.dispatched } ∧
      Fresh past { s with dispatched := m.id :: s.dispatched } m :=
  ⟨{ h with
      knownSettled := fun i hi => mem_cons_of_mem _ (h.knownSettled i hi)
      knownOutbox := fun i hi => mem_cons_of_mem _ (h.knownOutbox i hi)
      knownRetry := fun i hi => mem_cons_of_mem _ (h.knownRetry i hi) },
    fun hs => hnew (h.knownSettled m.id hs), (.head _), fun hi => hnew (h.knownOutbox m.id hi),
    fun hi => hnew (h.knownRetry m.id hi), fun hi => hnew (h.knownOutbox m.id (h.acked m.id hi))⟩

omit h in
lemma reportFirst_shrinks {m forced}
    {s before} : Shrinks s (s.reportFirst config host m forced before) := by
  simp only [reportFirst]
  split
  · exact emit_shrinks (fun _ => id) fun _ => id
  · exact emit_shrinks (fun _ => id) fun _ => id

lemma dispatchAppMessage_tidy (hnew : m.id ∉ s.dispatched) :
    Tidy past (s.dispatchAppMessage config host m forced) := by
  obtain ⟨h0, hf0⟩ := h.enter hnew
  obtain ⟨h1, hf1⟩ := admitAppMessage_tidy host h0 hf0
  simp only [dispatchAppMessage]
  split
  · have hfailed := h1.settle (e := .messageFailed m.id "Outbox capacity exceeded" 0)
      (fun _ hj => hj.symm) (fun _ => id) hf1.unsettled hf1.known hf1.outbox hf1.retry hf1.acks
    exact hfailed.shrinks (reportConnectionRequest_shrinks host.now m.id _ _)
  split
  · exact (deferForAckCapacity_tidy config host h1 hf1).shrinks
      (emit_shrinks (fun _ => id) fun _ => id)
  split
  · exact (holdForPeerWindow_tidy host h1 hf1).shrinks (emit_shrinks (fun _ => id) fun _ => id)
  exact (transmitFirst_tidy config host forced h1 hf1).shrinks
    (reportFirst_shrinks config host)

lemma dispatchInternalMessage_tidy
    (hnew : m.id ∉ s.dispatched) : Tidy past (s.dispatchInternalMessage config host m) := by
  obtain ⟨h0, hf0⟩ := h.enter hnew
  simp only [dispatchInternalMessage]
  split
  · exact deferForAckCapacity_tidy config host h0 hf0
  · exact transmitFirst_tidy config host none h0 hf0

omit h in
/-- A batch of messages that may be sent: each resend concerns its own message, so
the others may still be sent after it. -/
lemma redrive_tidy (hbefore : ∀ (m : OutboundMessage) s, Touches m s (before m.id s))
    (h : Tidy past s) (hbatch : ∀ m ∈ batch, Carried past s m.1) :
    Tidy past (s.redrive config host override before batch).1 ∧
      ∀ m, Carried past s m → Carried past (s.redrive config host override before batch).1 m := by
  induction batch generalizing s with
  | nil => exact ⟨h, fun _ => id⟩
  | cons m rest ih =>
    have hm := hbatch m (.head _)
    have h1 := hbefore m.1 s
    have ht := h1.trans (tryFlushSendVia_touches config host m.2 override (h1.filed hm.filed))
    obtain ⟨htidy, hkept⟩ := ih (h.touches hm ht) fun m' hm' =>
      (hbatch m' (.tail _ hm')).touches ht
    exact ⟨htidy, fun m' hm' => hkept m' (hm'.touches ht)⟩

lemma requeue_tidy
    (hover : ∀ m ∈ overflow, Carried past s m.1) : Tidy past (s.requeue config host overflow) := by
  induction overflow generalizing s with
  | nil => exact h
  | cons m rest ih =>
    have hm := hover m (.head _)
    have ht := enqueue_touches m.1 s config host.now m.2
    exact ih (h.touches hm ht) fun m' hm' => (hover m' (.tail _ hm')).touches ht

omit h in
lemma redrive_requeue_tidy (before)
    (hbefore : ∀ (m : OutboundMessage) s, Touches m s (before m.id s))
    (batch : List (OutboundMessage × ℕ)) (places) (h : Tidy past s)
    (hbatch : ∀ m ∈ batch, Carried past s m.1) :
    Tidy past ((s.redrive config host override before (batch.take places)).1.requeue config host
      (batch.drop places)) := by
  obtain ⟨htidy, hkept⟩ := redrive_tidy config host override hbefore h fun m hm =>
    hbatch m (mem_of_mem_take hm)
  exact requeue_tidy config host htidy fun m hm => hkept m.1 (hbatch m (mem_of_mem_drop hm))

omit h in
lemma cancelProbe_shrinks (order peer s) :
    Shrinks s (s.cancelProbeStateForParkedPeer order peer) := by
  unfold cancelProbeStateForParkedPeer
  split
  · exact .refl s
  · exact foldlRecOn _ _ (.refl s) fun t ht id _ =>
      ht.trans ((removeAck_shrinks id).trans (retryRemove_shrinks id _))

lemma flushOutboxForPeerVia_tidy : Tidy past (s.flushOutboxForPeerVia config host peer via) := by
  have hs := cancelProbe_shrinks host.order peer s
  have hs' : Shrinks s { s.cancelProbeStateForParkedPeer host.order peer with
      dmUnreachableParks :=
        (s.cancelProbeStateForParkedPeer host.order peer).dmUnreachableParks.erase peer } :=
    hs.trans { Shrinks.refl _ with }
  have h1 := h.shrinks hs'
  have hsent := redrive_requeue_tidy config host via retryRemove retryRemove_touches
    (((visit (s.cancelProbeStateForParkedPeer host.order peer).outbox host.order).filter
      fun e => decide (e.2.message.recipient = peer) &&
        (s.cancelProbeStateForParkedPeer host.order peer).restsInOutbox e.2.message.id).map
      fun e => (e.2.message, e.2.attemptCount)) flushBatchLimit h1 (by
    intro m hm
    obtain ⟨e, he, rfl⟩ := mem_map.1 hm
    exact h1.carried_entry (mem_visit.1 (mem_filter.1 he).1))
  simp only [flushOutboxForPeerVia]
  split
  · split
    · exact hsent.shrinks { Shrinks.refl _ with }
    · exact hsent
  · exact hsent

omit h in
lemma mem_heapOrder {r} (h : r ∈ s.heapOrder order) : get s.retryQueue r.1 = some r.2 :=
  mem_visit.1 ((mem_insertionSort _).1 h)

omit h in
lemma cancelAll_shrinks (order) (peers : List PeerId) (s) :
    Shrinks s (peers.foldl (fun s peer => s.cancelProbeStateForParkedPeer order peer) s) :=
  foldlRecOn _ _ (.refl s) fun t ht peer _ => ht.trans (cancelProbe_shrinks order peer t)

omit h in
lemma drained_shrinks (s) : Shrinks s { s with dmUnreachableParks := ∅, retryQueue := ∅ } :=
  { Shrinks.refl s with
    retry := nofun }

lemma flushOutboxAll_tidy : Tidy past (s.flushOutboxAll config host) := by
  unfold flushOutboxAll
  generalize hc : ((visit s.dmUnreachableParks host.peerOrder).map Prod.fst).foldl
    (fun s peer => s.cancelProbeStateForParkedPeer host.order peer) s = c
  have h1 : Tidy past c := hc ▸ h.shrinks (cancelAll_shrinks host.order _ s)
  have h2 := h1.shrinks (drained_shrinks c)
  have hsent := redrive_requeue_tidy config host none (fun _ s => s) (fun m s => .refl m s)
    ((c.heapOrder host.order).map (fun r => (r.2.message, r.2.retryCount)) ++
      ((visit c.outbox host.order).filter fun e =>
        decide (e.2.message.id ∉ ((c.heapOrder host.order).map
          (fun r => (r.2.message, r.2.retryCount))).map fun m => m.1.id) &&
        ({ c with dmUnreachableParks := ∅, retryQueue := ∅ } : SendEngine).restsInOutbox
          e.2.message.id).map
      fun e => (e.2.message, e.2.attemptCount))
    (min host.batchShare flushBatchLimit) h2 (by
      intro m hm
      rcases mem_append.1 hm with hm | hm
      · obtain ⟨r, hr, rfl⟩ := mem_map.1 hm
        exact (h1.carried_retry (mem_heapOrder hr)).shrinks (drained_shrinks c)
      obtain ⟨e, he, rfl⟩ := mem_map.1 hm
      exact h2.carried_entry (mem_visit.1 (mem_filter.1 he).1))
  exact hsent.shrinks { Shrinks.refl _ with }

omit h in
lemma flushHeldLine_rule {I : SendEngine → Prop}
    (hgone : ∀ {s id rest}, s.heldFor peer = id :: rest → I s → get s.outbox id = none →
      I { s with windowHeld := s.windowHeld.insert peer rest })
    (hsent : ∀ {s id rest e}, s.heldFor peer = id :: rest → Tidy past s → I s →
      get s.outbox id = some e →
      Carried past { s with windowHeld := s.windowHeld.insert peer rest } e.message →
      I (({ s with windowHeld := s.windowHeld.insert peer rest } : SendEngine).tryFlushSendVia
        config host e.message e.attemptCount none).1) (fuel budget) (h : Tidy past s) (hI : I s) :
    Tidy past (s.flushHeldLine config host peer fuel budget) ∧
      I (s.flushHeldLine config host peer fuel budget) := by
  induction fuel generalizing budget s with
  | zero => exact ⟨h, hI⟩
  | succ fuel ih =>
    cases budget with
    | zero => exact ⟨h, hI⟩
    | succ budget =>
      unfold flushHeldLine
      split
      · exact ⟨h, hI⟩
      rename_i id rest hline
      have hpop : Shrinks s { s with windowHeld := s.windowHeld.insert peer rest } :=
        { Shrinks.refl s with }
      split
      · rename_i hnone
        exact ih (budget + 1) (h.shrinks hpop) (hgone hline hI hnone)
      rename_i e he
      split
      · have hc := (h.carried_entry he).shrinks hpop
        exact ih budget ((h.shrinks hpop).touches hc
          (tryFlushSendVia_touches config host e.attemptCount none hc.filed))
          (hsent hline h hI he hc)
      · exact ⟨h, hI⟩

lemma flushPeerWindow_tidy : Tidy past (s.flushPeerWindow config host peer) := by
  have hline := (flushHeldLine_rule config host peer (I := fun _ => True) (fun _ _ _ => trivial)
    (fun _ _ _ _ _ => trivial) (s.heldFor peer).length flushBatchLimit h trivial).1
  simp only [flushPeerWindow]
  split
  · exact hline.shrinks { Shrinks.refl _ with }
  · exact hline

omit h in
lemma dequeueReady_get {now}
    (h : s.dequeueReady now order = some r) : ∃ i, get s.retryQueue i = some r := by
  unfold dequeueReady at h
  split at h
  · cases h
  rename_i r' _ hheap
  split at h
  · rw [← some.inj h]
    exact ⟨r'.1, mem_heapOrder (hheap ▸ mem_cons_self)⟩
  · cases h

omit h in
lemma processRetries_rule {I : SendEngine → Prop}
    (hentry : ∀ {s r}, Tidy past s → I s → Tidy past (s.retryRemove r.message.id) →
      Carried past (s.retryRemove r.message.id) r.message →
      I ((s.retryRemove r.message.id).processRetryEntry config host r))
    (places) (h : Tidy past s) (hI : I s) :
    Tidy past (s.processRetries config host places) ∧ I (s.processRetries config host places) := by
  induction places generalizing s with
  | zero => exact ⟨h, hI⟩
  | succ places ih =>
    unfold processRetries
    split
    · exact ⟨h, hI⟩
    rename_i r hr
    obtain ⟨i, hget⟩ := dequeueReady_get hr
    have hsh := retryRemove_shrinks r.message.id s
    have hc := (h.carried_retry hget).shrinks hsh
    exact ih ((h.shrinks hsh).touches hc (processRetryEntry_touches config host hc.filed))
      (hentry h hI (h.shrinks hsh) hc)

omit h in
lemma parkUnreachableDm_tidy {id}
    (h : Tidy past s) (he : get s.outbox id = some e)
    {stored} : Tidy past (s.parkUnreachableDm host id recipient attemptCount stored) :=
  h.touches (h.carried_entry he)
    (parkUnreachableDm_touches host he (h.filed id e he).1 recipient attemptCount stored)

lemma parkRelayPushedDm_tidy : Tidy past (s.parkRelayPushedDm host id stored) := by
  unfold parkRelayPushedDm
  split
  · split
    · exact h
    rename_i e he
    have hid := (h.filed id e he).1
    have hflag : Touches e.message s
        { s with outbox := modify s.outbox id fun e => { e with relayPushed := true } } := by
      rw [← hid]
      exact modifyOutbox_touches (f := fun e => { e with relayPushed := true }) (fun _ => rfl)
        e.message s
    have h1 := h.touches (h.carried_entry he) hflag
    obtain ⟨e', he', -⟩ := hflag.entry he
    exact parkUnreachableDm_tidy host h1 he'
  · exact h

lemma handleRecipientUnreachable_tidy :
    Tidy past (s.handleRecipientUnreachableForMessage host id stored) := by
  unfold handleRecipientUnreachableForMessage
  split
  · exact h
  rename_i e he
  have hsh : Shrinks s (if e.relayPushed then s
      else s.emit (.messageUndeliverable id e.message.recipient "recipient_unreachable")) := by
    split
    · exact .refl s
    · exact emit_shrinks (fun _ hj => hj) fun _ hj => hj
  exact parkUnreachableDm_tidy host (h.shrinks hsh) (hsh.outbox ▸ he)

lemma handleUntrackedReport_tidy : Tidy past (s.handleUntrackedReport host id report) := by
  unfold handleUntrackedReport
  split
  · split
    · exact h
    · exact handleRecipientUnreachable_tidy host id _ h
  · exact h

lemma onTransportSendFailed_tidy : Tidy past (s.onTransportSendFailed host id report) := by
  unfold onTransportSendFailed
  split
  · exact parkRelayPushedDm_tidy host id _ h
  split
  · exact handleUntrackedReport_tidy host id report h
  split
  · exact handleUntrackedReport_tidy host id report (h.shrinks untracked_shrinks)
  split
  · exact h.shrinks (untracked_shrinks.trans (emit_shrinks (fun _ hj => hj) fun _ hj => hj))
  · exact handleUntrackedReport_tidy host id report h

end

lemma failMaxRetries_tidy {id} (retryCount) (h : Tidy past s)
    (hmem : id ∈ s.outbox) : Tidy past (s.failMaxRetries host id retryCount) := by
  -- the report precedes the withdrawal; the two commute
  have hgone := h.giveUp hmem (e := .messageFailed id "Max retries exceeded" retryCount)
    (fun _ hj => hj.symm) fun _ hj => hj
  have hsh := reportConnectionRequest_shrinks host.now id "max_retries_exceeded"
    ((s.forgetOutboundMessage id).emit (.messageFailed id "Max retries exceeded" retryCount))
  have heq : s.failMaxRetries host id retryCount = (((s.forgetOutboundMessage id).emit
        (.messageFailed id "Max retries exceeded" retryCount)).reportConnectionRequest host.now id
          "max_retries_exceeded") := by
    simp only [failMaxRetries, reportConnectionRequest, emit, forgetOutboundMessage, retryRemove,
      removeAck, removeOutboxEntry]
    split
    · rfl
    split
    · rfl
    · rfl
  rw [heq]
  exact hgone.shrinks hsh

end

lemma handleTimedOutAck_tidy (pending) (h : Tidy past s) (hmem : pending.1 ∈ s.outbox) :
    Tidy past (s.handleTimedOutAck config host pending) ∧
      ∀ i, i ≠ pending.1 → i ∈ s.outbox → i ∈ (s.handleTimedOutAck config host pending).outbox := by
  obtain ⟨e, he⟩ := exists_get_of_mem hmem
  have hid := (h.filed _ e he).1
  have htouch : ∀ {t : SendEngine}, Touches e.message s t →
      Tidy past t ∧ ∀ i, i ≠ pending.1 → i ∈ s.outbox → i ∈ t.outbox := fun ht =>
    ⟨h.touches (h.carried_entry he) ht, fun i _ hi => (ht.mem_outbox i).2 hi⟩
  have hfailed : Tidy past (s.failMaxRetries host pending.1 pending.2.retryCount) ∧
      ∀ i, i ≠ pending.1 → i ∈ s.outbox →
        i ∈ (s.failMaxRetries host pending.1 pending.2.retryCount).outbox := by
    refine ⟨failMaxRetries_tidy host _ h hmem, fun i hne hi => ?_⟩
    have hout : (s.failMaxRetries host pending.1 pending.2.retryCount).outbox =
        s.outbox.erase pending.1 := by
      have hsh := reportConnectionRequest_shrinks host.now pending.1 "max_retries_exceeded"
        (s.emit (.messageFailed pending.1 "Max retries exceeded" pending.2.retryCount))
      show AList.erase _ _ = _
      exact congrArg (fun t => t.erase pending.1) hsh.outbox
    rw [hout]
    exact mem_erase_iff.2 ⟨hne, hi⟩
  unfold handleTimedOutAck
  split
  · rename_i extended hext
    apply htouch
    split at hext
    · unfold extendWhileQueued at hext
      split at hext
      · cases hext
      rename_i ack hack
      split at hext
      · cases hext
      rw [← some.inj hext]
      refine
        { Touches.refl e.message s with
          acks := fun j hj => get_insert_ne (hid ▸ hj)
          acksOwn := fun _ => .inr ?_ }
      rw [hid]
      exact hmem
    · cases hext
  · split
    · unfold handleMaxRetriesExceeded
      rw [he]
      dsimp only
      split
      · exact htouch (parkUnreachableDm_touches host he hid _ _ _)
      · exact hfailed
    · simp only [handleAckTimeoutRetry, he]
      split
      · exact htouch ((enqueue_touches e.message s config host.now _).trans
          (notice_touches e.message _ (fun _ => id) fun _ => id))
      · exact htouch (enqueue_touches e.message s config host.now _)

lemma drainTimedOut_shrinks (s) : Shrinks s (s.drainTimedOut now) :=
  { Shrinks.refl s with
    acks := fun i hi => by
      have hi' : i ∈ mapValues s.pendingAcks _ := hi
      rw [← get_isSome_iff, get_mapValues, isSome_map, get_isSome_iff] at hi'
      exact hi' }

/-- The timed-out acknowledgements, one after the other. `I` sees those still to come. -/
lemma processTimedOutAcks_rule {I : List MessageId → SendEngine → Prop}
    (hack : ∀ {s a ids}, Tidy past s → a.1 ∈ s.outbox → I (a.1 :: ids) s →
      I ids (handleTimedOutAck config host s a))
    (h : Tidy past s) (hI : I (((visit s.pendingAcks host.order).filter fun ack =>
      ackTimedOut host.now ack.2).map Prod.fst) (s.drainTimedOut host.now)) :
    Tidy past (s.processTimedOutAcks config host) ∧ I [] (s.processTimedOutAcks config host) := by
  have hfold : ∀ (acks : List (MessageId × PendingAck)) (s : SendEngine), Tidy past s →
      (acks.map Prod.fst).Nodup → (∀ a ∈ acks, a.1 ∈ s.outbox) → I (acks.map Prod.fst) s →
      Tidy past (acks.foldl (handleTimedOutAck config host) s) ∧
        I [] (acks.foldl (handleTimedOutAck config host) s) := by
    intro acks
    induction acks with
    | nil => exact fun s h _ _ hI => ⟨h, hI⟩
    | cons a acks ih =>
      intro s h hnodup hmem hI
      rw [map_cons, nodup_cons] at hnodup
      have hin := hmem a (.head _)
      obtain ⟨htidy, hkept⟩ := handleTimedOutAck_tidy config host a h hin
      refine ih _ htidy hnodup.2 (fun b hb => ?_) (hack h hin hI)
      exact hkept b.1 (fun he => hnodup.1 (he ▸ mem_map_of_mem hb)) (hmem b (.tail _ hb))
  refine hfold _ _ (h.shrinks (drainTimedOut_shrinks host.now s)) ?_ (fun a ha => ?_) hI
  · exact visit_nodup.sublist (filter_sublist.map _)
  · exact h.acked a.1 (mem_of_get (mem_visit.1 (mem_filter.1 ha).1))

lemma expireOutboxEntry_outbox (expired) (s : SendEngine) :
    (s.expireOutboxEntry host expired).outbox = s.outbox.erase expired.1 := by
  unfold expireOutboxEntry
  split
  · rfl
  · exact (reportConnectionRequest_shrinks _ _ _ _).outbox

lemma expireOutboxEntry_tidy (expired) (h : Tidy past s) (hmem : expired.1 ∈ s.outbox) :
    Tidy past (s.expireOutboxEntry host expired) := by
  unfold expireOutboxEntry
  split
  · exact h.forget expired.1
  refine .shrinks ?_ (reportConnectionRequest_shrinks _ _ _ _)
  exact h.giveUp hmem (fun _ hj => hj.symm) fun _ => id

section
variable (h : Tidy past s)
include h

lemma cleanupOutbox_tidy : Tidy past (s.cleanupOutbox config host) := by
  have hfold : ∀ (expired : List (MessageId × OutboxEntry)) (s : SendEngine), Tidy past s →
      (expired.map Prod.fst).Nodup → (∀ e ∈ expired, e.1 ∈ s.outbox) →
      Tidy past (expired.foldl (expireOutboxEntry host) s) := by
    intro expired
    induction expired with
    | nil => exact fun s h _ _ => h
    | cons e expired ih =>
      intro s h hnodup hmem
      rw [map_cons, nodup_cons] at hnodup
      have htidy := expireOutboxEntry_tidy host e h (hmem e (.head _))
      refine ih _ htidy hnodup.2 fun e' he' => ?_
      rw [expireOutboxEntry_outbox]
      refine mem_erase_iff.2 ⟨fun heq => hnodup.1 (heq ▸ mem_map_of_mem he'), ?_⟩
      exact hmem e' (.tail _ he')
  have hexpired := hfold ((visit s.outbox host.order).filter fun e => s.outboxExpired config host.now e.2)
    s h (visit_nodup.sublist (filter_sublist.map _)) fun e he =>
      mem_of_get (mem_visit.1 (mem_filter.1 he).1)
  exact hexpired.shrinks { Shrinks.refl _ with }

omit h in
lemma retryCleanupExpired_shrinks (s) : Shrinks s (s.retryCleanupExpired config now) :=
  { Shrinks.refl s with
    retry := fun i r hr => by
      have hr' : get (retain s.retryQueue _) i = some r := hr
      rw [get_retain] at hr'
      exact (filter_eq_some_iff.1 hr').1 }

omit h in
lemma pruneOldTimeouts_shrinks (s) : Shrinks s (s.pruneOldTimeouts config now) :=
  { Shrinks.refl s with
    acks := fun i hi => by
      obtain ⟨ack, hack⟩ := exists_get_of_mem hi
      have hack' : get (retain s.pendingAcks _) i = some ack := hack
      rw [get_retain] at hack'
      exact mem_of_get (filter_eq_some_iff.1 hack').1 }

lemma cleanupExpiredEntries_tidy : Tidy past (s.cleanupExpiredEntries config host) := by
  have h1 := h.shrinks (retryCleanupExpired_shrinks config host.now s)
  exact (cleanupOutbox_tidy config host h1).shrinks (pruneOldTimeouts_shrinks config host.now _)

lemma handleUndecryptableAck_tidy : Tidy past (s.handleUndecryptableAck config host id) := by
  unfold handleUndecryptableAck
  split
  · exact h
  rename_i e he
  split
  · exact h
  have hsh := resent_shrinks id s
  have hc := (h.carried_entry he).shrinks hsh
  exact (h.shrinks hsh).touches hc
    (tryFlushSendVia_touches config host e.attemptCount none hc.filed)

lemma deliver_tidy {id} (hmem : id ∈ s.outbox) (latencyMs hopCount : ℕ) (transport) :
    Tidy past ((s.forgetOutboundMessage id).emit (.messageDelivered id latencyMs hopCount transport)) :=
  h.giveUp hmem (fun _ hj => hj.symm) fun _ hj => hj

lemma settlePending_tidy (hack : get s.pendingAcks ack.ackFor = some pending) :
    Tidy past (s.settlePending config host ack pending) := by
  obtain ⟨e, he⟩ := exists_get_of_mem (h.acked _ (mem_of_get hack))
  have hdone := deliver_tidy h (mem_of_get he) (host.now - e.firstSentAt) ack.hopCount ack.transport
  simp only [settlePending, he]
  split
  · exact flushOutboxForPeerVia_tidy config host _ _ hdone
  · exact hdone

omit h in
lemma forget_without_slot {id} (hack : get s.pendingAcks id = none) :
    s.forgetOutboundMessage id = (s.retryRemove id).removeOutboxEntry id := by
  have hsame : s.pendingAcks.erase id = s.pendingAcks := by
    apply AList.ext
    exact kerase_of_notMem_keys (get_eq_none_iff.1 hack)
  simp only [forgetOutboundMessage, removeAck, retryRemove, hsame]

lemma settleDmWithoutPendingAck_tidy (hack : get s.pendingAcks ack.ackFor = none) :
    Tidy past (s.settleDmWithoutPendingAck config host ack) := by
  unfold settleDmWithoutPendingAck
  split
  · split
    · exact h
    rename_i e he
    apply flushOutboxForPeerVia_tidy
    rw [← forget_without_slot hack]
    exact deliver_tidy h (mem_of_get he) (host.now - e.firstSentAt) ack.hopCount ack.transport
  · exact h

lemma handleAckMessage_tidy : Tidy past (s.handleAckMessage config host ack) := by
  simp only [handleAckMessage]
  split
  · exact h
  split
  · exact handleUndecryptableAck_tidy config host ack.ackFor h
  split
  · rename_i pending hack
    exact settlePending_tidy config host ack (h.shrinks untracked_shrinks) hack
  rename_i hack
  exact settleDmWithoutPendingAck_tidy config host ack (h.shrinks untracked_shrinks) hack

end

def Op.mints : Op → Option OutboundMessage
  | .dispatchPrepared m _ => some m
  | .dispatchPreparedVia m _ _ => some m
  | .dispatchInternal m _ => some m
  | .sendSyncFrame m _ => some m
  | _ => none

/-- The id of a message sent for the first time is new. -/
def MintsNew (s : SendEngine) (op : SendHost × Op) : Prop :=
  ∀ m ∈ op.2.mints, m.id ∉ s.dispatched

instance (s : SendEngine) (op : SendHost × Op) : Decidable (MintsNew s op) :=
  inferInstanceAs (Decidable (∀ m ∈ op.2.mints, m.id ∉ s.dispatched))

lemma perform_tidy {op : Op} (h : Tidy past s)
    (hnew : MintsNew s (host, op)) : Tidy past (s.perform config host op) := by
  cases op with
  | dispatchPrepared m duplicate =>
    simp only [perform]
    split
    · exact h
    · exact dispatchAppMessage_tidy config host none h (hnew m rfl)
  | dispatchPreparedVia m transport duplicate =>
    simp only [perform]
    split
    · exact h
    · exact dispatchAppMessage_tidy config host (some transport) h (hnew m rfl)
  | dispatchInternal m duplicate =>
    simp only [perform]
    split
    · exact h
    · exact dispatchInternalMessage_tidy config host h (hnew m rfl)
  | sendSyncFrame m duplicate =>
    simp only [perform]
    split
    · exact h
    obtain ⟨h0, hf0⟩ := h.enter (hnew m rfl)
    exact transmitFirst_tidy config host none h0 hf0
  | ack frame => exact handleAckMessage_tidy config host frame h
  | sendFailed id report => exact onTransportSendFailed_tidy host id report h
  | flushPeer peer via => exact flushOutboxForPeerVia_tidy config host peer via h
  | flushAll => exact flushOutboxAll_tidy config host h
  | flushWindows =>
    exact foldlRecOn _ _ h fun t ht peer _ => flushPeerWindow_tidy config host peer ht
  | processRetryQueue =>
    exact (processRetries_rule config host (I := fun _ => True) (fun _ _ _ _ => trivial) _ h trivial).1
  | processTimedOutAcks =>
    exact (processTimedOutAcks_rule config host (I := fun _ _ => True) (fun _ _ _ => trivial) h
      trivial).1
  | cleanup => exact cleanupExpiredEntries_tidy config host h
  | forget id => exact h.forget id
  | linksChanged links =>
    exact ⟨h.orderly, h.gone, h.filed, h.queued, h.acked, h.knownSettled, h.knownOutbox, h.knownRetry⟩
  | welcomesChanged ids => exact h.shrinks { Shrinks.refl s with }
  | trackConnectionRequest id recipient => exact h.shrinks { Shrinks.refl s with }

lemma restart_tidy {restored : Table MessageId OutboxEntry}
    (hrestored : ∀ i e, get restored i = some e → e.message.id = i ∧ e.message.requiresAck = true) :
    Tidy [] (restart restored) where
  orderly := Pairwise.nil
  gone i hi := by
    obtain ⟨e, he, -⟩ := hi
    cases he
  filed := hrestored
  queued i r hr := absurd hr (by simp [restart, empty])
  acked i hi := absurd hi (by simp [restart, empty])
  knownSettled i hi := by
    obtain ⟨e, he, -⟩ := hi
    cases he
  knownOutbox i hi := AList.mem_keys.2 hi
  knownRetry i hi := absurd hi (by simp [restart, empty])

lemma step_tidy (op) (h : Tidy past s) (hnew : MintsNew s op) :
    Tidy (past ++ (s.step config op).2) (s.step config op).1 := by
  have hp := perform_tidy config op.1 h hnew
  have hsame : past ++ (s.step config op).2 ++ (s.step config op).1.log =
      past ++ (s.perform config op.1 op.2).log := append_nil _
  exact
    { orderly := by
        rw [hsame]
        exact hp.orderly
      gone := fun i hi => hp.gone i (hsame ▸ hi)
      filed := hp.filed
      queued := hp.queued
      acked := hp.acked
      knownSettled := fun i hi => hp.knownSettled i (hsame ▸ hi)
      knownOutbox := hp.knownOutbox
      knownRetry := hp.knownRetry }

lemma run_tidy (hs : Tidy [] s) (hnew : AlongSteps (step config) MintsNew s ops) :
    Tidy (runSteps (step config) s ops).2 (runSteps (step config) s ops).1 :=
  runSteps_invariant (I := fun s past => Tidy past s)
    (fun _ op _ hs hm => step_tidy config op hs hm) hnew hs

def onlineHost : SendHost where
  now := now
  answers _ :=
    { accepting := [.internet], selection := [.internet], reachable := true, mediaAcks := 0,
      failureToken := "" }
  order := []
  peerOrder := []
  availableTransports := [.internet]
  queuedMessageIds := []
  batchShare := 20

def hello : OutboundMessage :=
  { id := "hello", recipient := "bob", priority := .medium, requiresAck := true, kind := .sealed }

def helloAck : AckFrame :=
  { ackFor := "hello", sender := "bob", undecryptable := false, hopCount := 0, transport := .internet }

def acknowledgedOps : List (SendHost × Op) :=
  [(onlineHost 0, .dispatchPrepared hello false), (onlineHost 10000, .processTimedOutAcks),
    (onlineHost 11000, .processRetryQueue), (onlineHost 11200, .ack helloAck),
    (onlineHost 11300, .ack helloAck), (onlineHost 12000, .flushAll)]

/-- In such a run an acknowledgement is awaited only of a message in the outbox, and what waits
for a retry is filed there, as it is, if it needs an acknowledgement. -/
theorem tables_agree (restored : Table MessageId OutboxEntry)
    (hrestored : ∀ i e, get restored i = some e → e.message.id = i ∧ e.message.requiresAck = true)
    (ops : List (SendHost × Op)) (hnew : AlongSteps (step config) MintsNew (restart restored) ops) :
    let s := (runSteps (step config) (restart restored) ops).1
    (∀ i ∈ s.pendingAcks, i ∈ s.outbox) ∧
      ∀ i r, get s.retryQueue i = some r → r.message.id = i ∧ Filed s.outbox r.message := by
  have htidy := run_tidy config (restart_tidy hrestored) hnew
  exact ⟨htidy.acked, htidy.queued⟩

theorem tables_agree_sent :
    "hello" ∈ (runSteps (step .default) (restart ∅) (acknowledgedOps.take 1)).1.outbox :=
  (tables_agree .default ∅ (fun _ _ h => by cases h) _ (by decide +kernel)).1 _ (by decide +kernel)

end SendEngine

end OfflineProtocol
