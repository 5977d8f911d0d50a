import OfflineProtocol.SendEngine

/-! What the work on one message leaves alone. -/
namespace OfflineProtocol
open KeyedTable Option

namespace OutboxEvent

def settles (i : MessageId) : OutboxEvent → Prop
  | messageDelivered id _ _ _ => id = i
  | messageFailed id _ _ => id = i
  | _ => False

def sends (i : MessageId) : OutboxEvent → Prop
  | transmitted id _ => id = i
  | offered id => id = i
  | _ => False

def Concerns (i : MessageId) (e : OutboxEvent) : Prop :=
  (∀ j, ¬e.settles j) ∧ ∀ j, e.sends j → j = i

end OutboxEvent

namespace SendEngine

structure Filed (outbox : Table MessageId OutboxEntry) (m : OutboundMessage) : Prop where
  present : m.requiresAck = true → m.id ∈ outbox
  same : ∀ e, get outbox m.id = some e → e.message = m

structure Touches (m : OutboundMessage) (s s' : SendEngine) : Prop where
  outbox : ∀ j, j ≠ m.id → get s'.outbox j = get s.outbox j
  message : (get s'.outbox m.id).map (·.message) = (get s.outbox m.id).map (·.message)
  retry : ∀ j, j ≠ m.id → get s'.retryQueue j = get s.retryQueue j
  retryOwn : ∀ r, get s'.retryQueue m.id = some r → get s.retryQueue m.id = some r ∨ r.message = m
  acks : ∀ j, j ≠ m.id → get s'.pendingAcks j = get s.pendingAcks j
  acksOwn : m.id ∈ s'.pendingAcks → m.id ∈ s.pendingAcks ∨ m.id ∈ s.outbox
  held : ∀ p j, j ∈ s.heldFor p → j ∈ s'.heldFor p
  parks : ∀ p, p ∈ s.dmUnreachableParks → p ∈ s'.dmUnreachableParks
  links : s'.links = s.links
  requests : s'.pendingConnectionRequests = s.pendingConnectionRequests
  welcomes : s'.welcomeIds = s.welcomeIds
  dispatched : s'.dispatched = s.dispatched
  log : ∃ es, s'.log = s.log ++ es ∧ ∀ e ∈ es, OutboxEvent.Concerns m.id e

variable {m : OutboundMessage} {s s' s'' : SendEngine}

lemma Touches.refl (m s) : Touches m s s where
  outbox _ _ := rfl
  message := rfl
  retry _ _ := rfl
  retryOwn _ h := Or.inl h
  acks _ _ := rfl
  acksOwn h := Or.inl h
  held _ _ h := h
  parks _ h := h
  links := rfl
  requests := rfl
  welcomes := rfl
  dispatched := rfl
  log := ⟨[], (List.append_nil _).symm, nofun⟩

section
variable (h : Touches m s s')
include h

lemma Touches.entry
    (he : get s.outbox i = some e) : ∃ e', get s'.outbox i = some e' ∧ e'.message = e.message := by
  by_cases hi : i = m.id
  · have hmap := h.message
    rw [← hi, he] at hmap
    exact map_eq_some_iff.1 hmap
  · exact ⟨e, (h.outbox i hi).trans he, rfl⟩

lemma Touches.entry_back
    (he : get s'.outbox i = some e') : ∃ e, get s.outbox i = some e ∧ e.message = e'.message := by
  by_cases hi : i = m.id
  · have hmap := h.message
    rw [← hi, he] at hmap
    exact map_eq_some_iff.1 hmap.symm
  · exact ⟨e', (h.outbox i hi).symm.trans he, rfl⟩

lemma Touches.mem_outbox (i) : i ∈ s'.outbox ↔ i ∈ s.outbox := by
  constructor
  · intro hi
    obtain ⟨e, he⟩ := exists_get_of_mem hi
    obtain ⟨e', he', -⟩ := h.entry_back he
    exact mem_of_get he'
  · intro hi
    obtain ⟨e, he⟩ := exists_get_of_mem hi
    obtain ⟨e', he', -⟩ := h.entry he
    exact mem_of_get he'

lemma Touches.trans (h' : Touches m s' s'') : Touches m s s'' where
  outbox j hj := (h'.outbox j hj).trans (h.outbox j hj)
  message := h'.message.trans h.message
  retry j hj := (h'.retry j hj).trans (h.retry j hj)
  retryOwn r hr := (h'.retryOwn r hr).elim (h.retryOwn r) Or.inr
  acks j hj := (h'.acks j hj).trans (h.acks j hj)
  acksOwn hi := (h'.acksOwn hi).elim h.acksOwn fun hm => Or.inr ((h.mem_outbox m.id).1 hm)
  held p j hj := h'.held p j (h.held p j hj)
  parks p hp := h'.parks p (h.parks p hp)
  links := h'.links.trans h.links
  requests := h'.requests.trans h.requests
  welcomes := h'.welcomes.trans h.welcomes
  dispatched := h'.dispatched.trans h.dispatched
  log := by
    obtain ⟨es, hes, hc⟩ := h.log
    obtain ⟨fs, hfs, hd⟩ := h'.log
    exact ⟨es ++ fs, by rw [hfs, hes, List.append_assoc], List.forall_mem_append.2 ⟨hc, hd⟩⟩

lemma Touches.filed (hf : Filed s.outbox m') : Filed s'.outbox m' where
  present hreq := (h.mem_outbox m'.id).2 (hf.present hreq)
  same e' he' := by
    obtain ⟨e, he, hm⟩ := h.entry_back he'
    rw [← hm]
    exact hf.same e he

end

section
variable (m s)

lemma emit_touches (he : OutboxEvent.Concerns m.id e) : Touches m s (s.emit e) :=
  { Touches.refl m s with
    log := ⟨[e], rfl, fun e' he' => by rw [List.mem_singleton.1 he']; exact he⟩ }

lemma transmitted_touches (via) : Touches m s (s.emit (.transmitted m.id via)) :=
  emit_touches m s ⟨fun _ => id, fun _ h => h.symm⟩

lemma offerToMesh_touches : Touches m s (s.offerToMesh m) :=
  emit_touches m s ⟨fun _ => id, fun _ h => h.symm⟩

lemma notice_touches (hset : ∀ j, ¬e.settles j) (hsend : ∀ j, ¬e.sends j) :
    Touches m s (s.emit e) :=
  emit_touches m s ⟨hset, fun j h => absurd h (hsend j)⟩

lemma offerResendToMesh_touches (a accepted) :
    Touches m s (s.offerResendToMesh m a accepted) := by
  unfold offerResendToMesh
  split
  · exact .refl m s
  · exact offerToMesh_touches m s

lemma retryRemove_touches : Touches m s (s.retryRemove m.id) :=
  { Touches.refl m s with
    retry := fun j hj => by
      show get (s.retryQueue.erase m.id) j = _
      rw [get_erase_ne hj]
    retryOwn := fun r hr => by
      have hr' : get (s.retryQueue.erase m.id) m.id = some r := hr
      rw [get_erase, if_pos rfl] at hr'
      exact absurd hr' (by simp) }

lemma removeAck_touches : Touches m s (s.removeAck m.id) :=
  { Touches.refl m s with
    acks := fun j hj => by
      show get (s.pendingAcks.erase m.id) j = _
      rw [get_erase_ne hj]
    acksOwn := fun hi => absurd rfl (mem_erase_iff.1 hi).1 }

lemma enqueueWithDelay_touches {now retryCount delayMs} :
    Touches m s (s.enqueueWithDelay now m retryCount delayMs) := by
  unfold enqueueWithDelay
  split
  · exact .refl m s
  exact
    { Touches.refl m s with
      retry := fun j hj => get_insert_ne hj
      retryOwn := fun r hr => by
        have hr' := get_insert_self.symm.trans hr
        rw [← some.inj hr']
        exact .inr rfl }

lemma enqueue_touches (config now retryCount) : Touches m s (s.enqueue config now m retryCount) :=
  enqueueWithDelay_touches m s

lemma modifyAck_touches (f) : Touches m s { s with pendingAcks := modify s.pendingAcks m.id f } :=
  { Touches.refl m s with
    acks := fun j hj => by
      show get (modify s.pendingAcks m.id f) j = _
      rw [get_modify, if_neg hj]
    acksOwn := fun hi => Or.inl (mem_modify.1 hi) }

end

variable (config : OutboxConfig) (host : SendHost)

lemma ensureAckRegistration_touches (now a)
    (hf : Filed s.outbox m) : Touches m s (s.ensureAckRegistration config now a m) := by
  unfold ensureAckRegistration
  split
  · rename_i hreg
    have hreq : m.requiresAck = true := by
      simp only [registersAck, Bool.and_eq_true] at hreg
      exact hreg.1.1
    exact
      { Touches.refl m s with
        acks := fun j hj => get_insert_ne hj
        acksOwn := fun _ => .inr (hf.present hreq) }
  · exact .refl m s

/-- A message that is filed is not filed again, and needs no room. -/
lemma ensureOutboxEntry_filed (hf : Filed s.outbox m) : s.ensureOutboxEntry host m = s := by
  unfold ensureOutboxEntry
  rw [if_pos]
  cases hreq : m.requiresAck with
  | false => rfl
  | true =>
    obtain ⟨e, he⟩ := exists_get_of_mem (hf.present hreq)
    simp [he]

lemma roomFor_filed (he : get s.outbox m.id = some e) : s.roomFor host m = s := by
  unfold roomFor
  simp [he]

lemma markMessageSent_filed
    (hreq : m.requiresAck = true) (he : get s.outbox m.id = some e) :
    s.markMessageSent host m via attempt =
      { s with outbox := s.outbox.insert m.id (markedEntry host m via attempt (some e)) } := by
  simp only [markMessageSent, hreq, Bool.not_true, Bool.false_eq_true, if_false,
    roomFor_filed host he, he]

lemma markMessageSent_touches (via attempt)
    (hf : Filed s.outbox m) : Touches m s (s.markMessageSent host m via attempt) := by
  cases hreq : m.requiresAck with
  | false =>
    have hsame : s.markMessageSent host m via attempt = s := by
      simp [markMessageSent, hreq]
    rw [hsame]
    exact .refl m s
  | true =>
    obtain ⟨e, he⟩ := exists_get_of_mem (hf.present hreq)
    rw [markMessageSent_filed host hreq he]
    exact
      { Touches.refl m s with
        outbox := fun j hj => get_insert_ne hj
        message := by
          rw [get_insert_self, he, map_some, map_some, hf.same e he]
          rfl }

lemma heldFor_insert {s : SendEngine} :
    { s with windowHeld := s.windowHeld.insert peer line }.heldFor p =
      if p = peer then line else s.heldFor p := by
  unfold heldFor
  rw [get_insert]
  split
  · rfl
  · rfl

lemma holdForPeerWindow_filed (hf : Filed s.outbox m) : s.holdForPeerWindow host m =
      { s.retryRemove m.id with
        windowHeld := s.windowHeld.insert m.recipient
          (if m.id ∈ s.heldFor m.recipient then s.heldFor m.recipient
            else s.heldFor m.recipient ++ [m.id]) } := by
  simp only [holdForPeerWindow, ensureOutboxEntry_filed host hf]
  rfl

lemma holdForPeerWindow_touches (hf : Filed s.outbox m) :
    Touches m s (s.holdForPeerWindow host m) := by
  rw [holdForPeerWindow_filed host hf]
  refine
    { retryRemove_touches m s with
      held := fun p j hj => ?_ }
  apply (congrArg (j ∈ ·) heldFor_insert).mpr
  by_cases hp : p = m.recipient
  · subst hp
    rw [if_pos rfl]
    split
    · exact hj
    · exact List.mem_append_left _ hj
  · rw [if_neg hp]
    exact hj

lemma tryFlushSendVia_touches (attemptCount) (override) (hf : Filed s.outbox m) :
    Touches m s (s.tryFlushSendVia config host m attemptCount override).1 := by
  simp only [tryFlushSendVia, ensureOutboxEntry_filed host hf]
  split
  · exact enqueue_touches m s config host.now attemptCount
  split
  · exact holdForPeerWindow_touches host hf
  split
  · rename_i via _
    have h1 := transmitted_touches m s (some via)
    have h2 := ensureAckRegistration_touches config host.now (host.answers m.id) (h1.filed hf)
    have h3 := markMessageSent_touches host (some via) (attemptCount + 1) ((h1.trans h2).filed hf)
    exact ((h1.trans h2).trans h3).trans (offerResendToMesh_touches m _ _ true)
  · exact ((transmitted_touches m s none).trans (offerResendToMesh_touches m _ _ false)).trans
      (enqueue_touches m _ config host.now attemptCount)

lemma processRetryEntry_touches
    (hf : Filed s.outbox r.message) : Touches r.message s (s.processRetryEntry config host r) := by
  simp only [processRetryEntry, ensureOutboxEntry_filed host hf]
  split
  · exact enqueueWithDelay_touches r.message s
  split
  · exact holdForPeerWindow_touches host hf
  split
  · rename_i via _
    have h1 := transmitted_touches r.message s (some via)
    have h2 := h1.trans (ensureAckRegistration_touches config host.now
      (host.answers r.message.id) (h1.filed hf))
    have h3 : Touches r.message s (if (s.emit (.transmitted r.message.id (some via))).registersAck
          config (host.answers r.message.id) r.message then
        ((s.emit (.transmitted r.message.id (some via))).ensureAckRegistration config host.now
          (host.answers r.message.id) r.message).setRetryCount r.message.id (r.retryCount + 1)
        else ((s.emit (.transmitted r.message.id (some via))).ensureAckRegistration config host.now
          (host.answers r.message.id) r.message).incrementRetryCount host.now r.message.id) := by
      split
      · exact h2.trans (modifyAck_touches r.message _ _)
      · exact h2.trans (modifyAck_touches r.message _ _)
    exact (h3.trans (markMessageSent_touches host (some via) (r.retryCount + 1)
      (h3.filed hf))).trans (offerResendToMesh_touches r.message _ _ true)
  · have href := ((transmitted_touches r.message s none).trans
      (offerResendToMesh_touches r.message _ (host.answers r.message.id) false)).trans
      (enqueue_touches r.message _ config host.now (r.retryCount + 1))
    split
    · exact href.trans (notice_touches r.message _ (fun _ => id) fun _ => id)
    · exact href

lemma parkUnreachableDm_touches {id : MessageId} {e : OutboxEntry} (he : get s.outbox id = some e)
    (hid : e.message.id = id) (recipient attemptCount stored) :
    Touches e.message s (s.parkUnreachableDm host id recipient attemptCount stored) := by
  subst hid
  have h1 := (removeAck_touches e.message s).trans (retryRemove_touches e.message _)
  have h2 : Touches e.message ((s.removeAck e.message.id).retryRemove e.message.id)
      { (s.removeAck e.message.id).retryRemove e.message.id with
        dmUnreachableParks := s.dmUnreachableParks.insert recipient (s.parksOf recipient + 1) } :=
    { Touches.refl e.message _ with
      parks := fun p hp => (AList.mem_insert _).2 (.inr hp) }
  have h3 := (h1.trans h2).trans (offerToMesh_touches e.message _)
  simp only [parkUnreachableDm]
  split
  · rename_i hnone
    exact absurd (he.symm.trans hnone) (by simp)
  rename_i e' he'
  obtain rfl : e = e' := some.inj (he.symm.trans he')
  split
  · exact h3
  · exact h3.trans (enqueueWithDelay_touches e.message _)

lemma modifyOutbox_touches (hfm : ∀ e, (f e).message = e.message) (m : OutboundMessage) (s) :
    Touches m s { s with outbox := modify s.outbox m.id f } :=
  { Touches.refl m s with
    outbox := fun j hj => by
      show get (modify s.outbox m.id f) j = _
      rw [get_modify, if_neg hj]
    message := by
      rw [get_modify, if_pos rfl, map_map]
      exact map_congr fun e _ => hfm e }

end SendEngine

end OfflineProtocol
