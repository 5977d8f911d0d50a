import OfflineProtocol.EventTrace
import OfflineProtocol.SessionOutcomes

/-! Flags and Welcomes never outlive their group: a device confirms, gates and
invites only for a session it holds, and the Welcome it retains is into the group
it holds now. -/
namespace OfflineProtocol.SessionSlots
open KeyedTable EventTrace SlotStore

namespace SlotStore
variable {t : SlotStore} {peer p : PeerId} {source : ConfirmSource}

@[simp] lemma markWelcomeConfirmed_sessions : (t.markWelcomeConfirmed peer).sessions = t.sessions
  := by
  unfold markWelcomeConfirmed
  split <;> [rfl; split <;> rfl]

@[simp] lemma markWelcomeConfirmed_confirmed :
    (t.markWelcomeConfirmed peer).confirmedSessions = t.confirmedSessions := by
  unfold markWelcomeConfirmed
  split <;> [rfl; split <;> rfl]

@[simp] lemma markWelcomeConfirmed_awaiting :
    (t.markWelcomeConfirmed peer).bothCreateAwaitingDecrypt = t.bothCreateAwaitingDecrypt := by
  unfold markWelcomeConfirmed
  split <;> [rfl; split <;> rfl]

@[simp] lemma markWelcomeConfirmed_ownPackages :
    (t.markWelcomeConfirmed peer).ownPackages = t.ownPackages := by
  unfold markWelcomeConfirmed
  split <;> [rfl; split <;> rfl]

@[simp] lemma markWelcomeConfirmed_opened : (t.markWelcomeConfirmed peer).opened = t.opened := by
  unfold markWelcomeConfirmed
  split <;> [rfl; split <;> rfl]

lemma markWelcomeConfirmed_retained
    (h : get (t.markWelcomeConfirmed peer).welcomeLifecycles p = some record) :
    ∃ before, get t.welcomeLifecycles p = some before ∧ record.welcome = before.welcome := by
  unfold markWelcomeConfirmed at h
  split at h
  · exact ⟨record, h, rfl⟩
  rename_i before hbefore
  split at h
  · exact ⟨record, (of_get_erase h).2, rfl⟩
  all_goals first
    | exact ⟨record, h, rfl⟩
    | (rw [get_insert] at h
       split_ifs at h with hp
       · cases h
         exact ⟨before, hp ▸ hbefore, rfl⟩
       · exact ⟨record, h, rfl⟩)

lemma confirmSessionState_keeps (t : SlotStore) (peer source) :
    (t.confirmSessionState peer source).sessions = t.sessions ∧
      (t.confirmSessionState peer source).ownPackages = t.ownPackages ∧
      (t.confirmSessionState peer source).opened = t.opened := by
  unfold confirmSessionState
  split
  · exact ⟨rfl, rfl, rfl⟩
  split
  · exact ⟨rfl, rfl, rfl⟩
  simp
  exact ⟨rfl, rfl, rfl⟩

lemma mem_confirmSessionState : p ∈ (t.confirmSessionState peer source).confirmedSessions ↔
      p ∈ t.confirmedSessions ∨ (p = peer ∧ t.canConfirmFromSource peer source = true) := by
  cases hcan : t.canConfirmFromSource peer source with
  | false => simp [confirmSessionState, hcan]
  | true =>
    rw [confirmSessionState, hcan, if_neg (by decide)]
    split
    · rename_i hmem
      constructor
      · exact Or.inl
      rintro (h | ⟨rfl, -⟩)
      · exact h
      · exact hmem
    · simp only [markWelcomeConfirmed_confirmed, clearBothCreateAwaitingDecrypt, List.mem_cons,
        and_true]
      exact or_comm

lemma mem_awaiting_confirmSessionState :
    p ∈ (t.confirmSessionState peer source).bothCreateAwaitingDecrypt ↔
      p ∈ t.bothCreateAwaitingDecrypt ∧
        ¬(p = peer ∧ t.canConfirmFromSource peer source = true) := by
  cases hcan : t.canConfirmFromSource peer source with
  | false => simp [confirmSessionState, hcan]
  | true =>
    rw [confirmSessionState, hcan, if_neg (by decide)]
    split <;> simp [clearBothCreateAwaitingDecrypt]

lemma confirmSessionState_retained
    (h : get (t.confirmSessionState peer source).welcomeLifecycles p = some record) :
    ∃ before, get t.welcomeLifecycles p = some before ∧ record.welcome = before.welcome := by
  unfold confirmSessionState at h
  split at h
  · exact ⟨record, h, rfl⟩
  split at h
  · exact ⟨record, h, rfl⟩
  obtain ⟨before, hbefore, hwelcome⟩ := markWelcomeConfirmed_retained h
  exact ⟨before, hbefore, hwelcome⟩

structure Invites (config : SessionConfig) (localId peer : PeerId) (held : SessionGroup)
    (welcome : WelcomeMessage) : Prop where
  inviter : welcome.inviterId = localId
  slot : welcome.groupId = config.book.forSession localId peer
  group : welcome.group = held.group
  epoch : welcome.epoch = held.epoch
  proven : welcome.leavesProven = true

structure Coherent (config : SessionConfig) (localId : PeerId) (t : SlotStore) : Prop where
  confirmed : ∀ p ∈ t.confirmedSessions, t.hasSession p = true
  awaiting : ∀ p ∈ t.bothCreateAwaitingDecrypt, t.hasSession p = true
  retained : ∀ p record, get t.welcomeLifecycles p = some record →
    ∃ held, get t.sessions p = some held ∧ Invites config localId p held record.welcome

variable {config : SessionConfig} {host : SessionHost} {localId : PeerId}

lemma hasSession_of_get (h : get t.sessions peer = some held) : t.hasSession peer = true := by
  simp only [hasSession, h, Option.isSome_some]

section
variable (h : Coherent config localId t)
include h

lemma Coherent.unretained (hnone : t.hasSession peer = false) :
    get t.welcomeLifecycles peer = none := by
  cases hrec : get t.welcomeLifecycles peer with
  | none => rfl
  | some record =>
    obtain ⟨held, hheld, -⟩ := h.retained peer record hrec
    rw [hasSession_of_get hheld] at hnone
    cases hnone

lemma Coherent.manualMlsDeleteSession {peer} :
    Coherent config localId (t.manualMlsDeleteSession peer) := by
  -- What is left of another peer was there before.
  have hother {q : PeerId} (hq : q ≠ peer) :
      (t.manualMlsDeleteSession peer).hasSession q = t.hasSession q := by
    simp only [hasSession, SlotStore.manualMlsDeleteSession, get_erase_ne hq]
  constructor
  · intro q hq
    obtain ⟨hq, hne⟩ := List.mem_filter.1 hq
    rw [hother (of_decide_eq_true hne)]
    exact h.confirmed q hq
  · intro q hq
    obtain ⟨hq, hne⟩ := List.mem_filter.1 hq
    rw [hother (of_decide_eq_true hne)]
    exact h.awaiting q hq
  · intro q record hrec
    simp only [SlotStore.manualMlsDeleteSession, get_erase] at hrec ⊢
    split_ifs at hrec ⊢ with hq
    exact h.retained q record hrec

lemma Coherent.confirmSessionState (hsession : t.hasSession peer = true) {source} :
    Coherent config localId (t.confirmSessionState peer source) := by
  have hsess := (confirmSessionState_keeps t peer source).1
  constructor
  · intro q hq
    rw [hasSession, hsess]
    rcases mem_confirmSessionState.1 hq with hq | ⟨rfl, -⟩
    · exact h.confirmed q hq
    · exact hsession
  · intro q hq
    rw [hasSession, hsess]
    exact h.awaiting q (mem_awaiting_confirmSessionState.1 hq).1
  · intro q record hrec
    obtain ⟨before, hbefore, hwelcome⟩ := confirmSessionState_retained hrec
    rw [hsess, hwelcome]
    exact h.retained q before hbefore

lemma Coherent.markBothCreateAwaitingDecrypt (hsession : t.hasSession peer = true) :
    Coherent config localId (t.markBothCreateAwaitingDecrypt peer) :=
  { h with
    awaiting := by
      intro q hq
      unfold SlotStore.markBothCreateAwaitingDecrypt at hq
      split_ifs at hq with hmem
      · exact h.awaiting q hq
      rcases List.mem_cons.1 hq with rfl | hq
      · exact hsession
      · exact h.awaiting q hq }

lemma Coherent.install {host} {welcome} {stamp} (hkept : ∀ p record, get kept p = some record →
      p ≠ welcome.inviterId ∧ get t.welcomeLifecycles p = some record) :
    Coherent config localId { t.install host welcome stamp with welcomeLifecycles := kept } := by
  have hmono {q : PeerId} (hq : t.hasSession q = true) :
      (t.install host welcome stamp).hasSession q = true := by
    simp only [hasSession, SlotStore.install, get_insert]
    split_ifs
    · rfl
    · exact hq
  constructor
  · exact fun q hq => hmono (h.confirmed q hq)
  · exact fun q hq => hmono (h.awaiting q hq)
  intro q record hrec
  obtain ⟨hq, hbefore⟩ := hkept q record hrec
  obtain ⟨held, hheld, hinvite⟩ := h.retained q record hbefore
  exact ⟨held, by simpa only [SlotStore.install, get_insert, if_neg hq] using hheld, hinvite⟩

end

end SlotStore

namespace SessionDevice

def Coherent (config : SessionConfig) (s : SessionDevice) : Prop :=
  SlotStore.Coherent config s.localId s.slots

variable {peer : PeerId} {s : SessionDevice} {config : SessionConfig} {host : SessionHost}
variable {sender : PeerId} {welcome : WelcomeMessage}

lemma Steady.coherent (h : Steady peer s s') (hs : s.Coherent config) : s'.Coherent config := by
  constructor
  · intro p hp
    rw [h.hasSession]
    exact hs.confirmed p (h.confirmed ▸ hp)
  · intro p hp
    rw [h.hasSession]
    exact hs.awaiting p (h.awaiting ▸ hp)
  intro p record hrec
  have hretained := h.retained p
  rw [hrec, Option.map_some, eq_comm, Option.map_eq_some_iff] at hretained
  obtain ⟨before, hbefore, hwelcome⟩ := hretained
  rw [h.sessions, h.localId, ← hwelcome]
  exact hs.retained p before hbefore

section
variable (h : s.Coherent config)
include h

lemma discardLocalSession_coherent : (s.discardLocalSession peer).Coherent config := by
  rcases discardLocalSession_slots s peer with heq | heq
  · rw [heq]
    exact h
  rw [heq]
  exact h.manualMlsDeleteSession

lemma compared_coherent (hsession : s.slots.hasSession peer = true)
    {theirs source} : (s.compared peer theirs source).Coherent config := by
  unfold compared
  split
  · exact h.confirmSessionState hsession
  · exact h.confirmSessionState hsession
  · exact h
  · exact h

lemma openEncrypted_coherent (message) :
    (openEncrypted config host s peer message).Coherent config := by
  rcases openEncrypted_outcome config host s peer
      message with hstead | ⟨held, -, -, m, hm, heq⟩ | ⟨held, hheld, -, -, heq⟩
  · exact hstead.coherent h
  · rw [heq]
    exact discardLocalSession_coherent (hm.coherent h)
  rw [heq]
  have hopened : SlotStore.Coherent config s.localId
      { s.slots with opened := message :: s.slots.opened } := { h with }
  exact hopened.confirmSessionState (hasSession_of_get hheld)

omit h in
lemma Drains.coherent (hdrains : Drains config host s peer s') (h : s.Coherent config) :
    s'.Coherent config :=
  hdrains.rule (fun _ _ hsteady => hsteady.coherent)
    (fun _ message _ ht => openEncrypted_coherent ht message) h

lemma started_coherent : (started config host s peer received).Coherent config := by
  have hget (p : PeerId) : get (started config host s peer received).slots.sessions p =
      if p = peer then
        some { group := host.freshGroup
               epoch := 1
               establishedAt := host.now
               builtFrom := received.frameStamp }
      else get s.slots.sessions p := get_insert
  have hmono {p : PeerId} (hp : s.slots.hasSession p = true) :
      (started config host s peer received).slots.hasSession p = true := by
    rw [SlotStore.hasSession, hget]
    split_ifs
    · rfl
    · exact hp
  constructor
  · exact fun p hp => hmono (h.confirmed p hp)
  · exact fun p hp => hmono (h.awaiting p hp)
  intro p record hrec
  rw [hget]
  simp only [started, setWelcome, get_insert] at hrec
  split_ifs at hrec ⊢ with hp
  · cases hrec
    subst hp
    exact ⟨_, rfl, ⟨rfl, rfl, rfl, rfl, rfl⟩⟩
  · exact h.retained p record hrec

lemma joined_coherent (hinvites : welcome.inviterId = sender)
    {freshness} : (joined host s sender welcome timestamp freshness).Coherent config := by
  subst hinvites
  have hslots : (adopted host s welcome.inviterId welcome timestamp freshness).slots =
      { s.slots.install host welcome timestamp with
        welcomeLifecycles := if s.slots.hasSession welcome.inviterId then
          s.slots.welcomeLifecycles.erase welcome.inviterId else s.slots.welcomeLifecycles } := by
    simp only [adopted, noteAdoption]
    split_ifs <;> rfl
  have hkept : ∀ p record, get (if s.slots.hasSession welcome.inviterId then
      s.slots.welcomeLifecycles.erase welcome.inviterId else s.slots.welcomeLifecycles) p =
        some record → p ≠ welcome.inviterId ∧ get s.slots.welcomeLifecycles p = some record := by
    intro p record hrec
    split_ifs at hrec with hsession
    · exact of_get_erase hrec
    -- Nothing was retained for a slot without a group.
    refine ⟨?_, hrec⟩
    rintro rfl
    rw [h.unretained (by simpa using hsession)] at hrec
    cases hrec
  have hadopt : (adopted host s welcome.inviterId welcome timestamp freshness).Coherent config := by
    unfold SessionDevice.Coherent
    rw [hslots]
    exact h.install hkept
  apply hadopt.confirmSessionState
  rw [hslots]
  exact SlotStore.hasSession_of_get get_insert_self

lemma keptOver_coherent
    (hkept : KeptOver config s sender welcome kept) : kept.Coherent config s.localId := by
  cases hkept with
  | same => exact h
  | spent _ => exact { h with }
  | gated hsession _ _ => exact h.markBothCreateAwaitingDecrypt hsession

lemma handleWelcomeMessage_coherent {timestamp freshness} :
    (handleWelcomeMessage config host s sender welcome timestamp freshness).Coherent config := by
  by_cases hjoins : Joins config s sender welcome
  · exact (handleWelcomeMessage_joins _ hjoins timestamp freshness).coherent
      (joined_coherent h hjoins.inviter)
  rcases handleWelcomeMessage_keeps host hjoins timestamp freshness with
    heq | ⟨kept, hkept, hstead⟩
  · rw [heq]
    exact h
  have hcoherent := keptOver_coherent h hkept
  exact hstead.coherent hcoherent

end

lemma establishSecureSession_coherent (host peer)
    (h : s.Coherent config) : (establishSecureSession config host s peer).1.Coherent config := by
  rcases establishSecureSession_outcome config host _ peer
      (fun hnone => h.unretained hnone) with ⟨-, hstead⟩ | ⟨-, -, received, -, -, hstead⟩
  · exact hstead.coherent h
  · exact hstead.coherent (started_coherent h)

section
variable (h : s.Coherent config)
include h

section
variable (frame : ControlFrame) (payload : KeyPackagePayload) (freshness : Option ℤ)
  (theirs : Option SessionCorroboration)

lemma ensureSessionEstablishment_coherent :
    (ensureSessionEstablishment config host s peer).Coherent config := by
  unfold ensureSessionEstablishment
  split
  · exact h
  rename_i hnone
  rcases buildFromPending_outcome config host
      (h.unretained (by simpa using hnone)) with ⟨-, hstead⟩ | ⟨-, received, -, -, hstead⟩
  · exact hstead.coherent h
  · exact hstead.coherent (started_coherent h)

lemma dropSessionForReset_coherent : (s.dropSessionForReset peer).Coherent config :=
  h.manualMlsDeleteSession

lemma autoEstablish_coherent : (autoEstablish config host s peer freshness).Coherent config := by
  have hestablished := establishSecureSession_coherent host peer h
  simp only [autoEstablish]
  split
  · exact h
  split
  · split
    · exact hestablished
    · exact hestablished
  · split
    · exact hestablished
    · exact rearmWelcomeForPeer_steady.coherent hestablished
  · exact hestablished

lemma answerPeerWithoutSession_coherent (package) (freshness) (unspent) :
    (answerPeerWithoutSession config host s peer package freshness unspent).Coherent config := by
  unfold answerPeerWithoutSession
  split
  · exact h
  split
  · exact h
  · exact resendWelcome_steady.coherent h
  split
  · exact h
  split
  · exact h
  split
  · exact h
  · exact dropSessionForReset_coherent (s := { s with records := _ }) h

lemma applySessionReset_coherent : (s.applySessionReset peer freshness).Coherent config := by
  unfold applySessionReset
  cases freshness with
  | none =>
    simp only
    split
    · exact dropSessionForReset_coherent h
    · exact h
  | some stamp =>
    simp only
    split
    · exact dropSessionForReset_coherent (s := { s with records := _ }) h
    · exact h

lemma obeyDirectives_coherent :
    (obeyDirectives config host s peer payload freshness).Coherent config := by
  simp only [obeyDirectives]
  split
  · apply answerPeerWithoutSession_coherent
    split
    · exact applySessionReset_coherent h freshness
    · exact h
  · split
    · exact applySessionReset_coherent h freshness
    · exact h

lemma handleKeyPackageMessage_coherent {timestamp freshness} :
    (handleKeyPackageMessage config host s peer payload timestamp freshness).Coherent config := by
  apply autoEstablish_coherent
  apply (cacheAndReciprocate_steady _ _ _ _ payload timestamp).coherent
  apply obeyDirectives_coherent
  exact (learnAdvertised_steady _ _ payload).coherent h

lemma handleSessionConfirmProbe_coherent :
    (handleSessionConfirmProbe config host s peer theirs).Coherent config := by
  by_cases hsession : s.slots.hasSession peer = true
  · rcases handleSessionConfirmProbe_outcome config host s peer theirs with hstead | ⟨-, heq⟩
    · exact hstead.coherent (compared_coherent h hsession)
    · rwa [heq]
  · simpa only [handleSessionConfirmProbe, hsession, Bool.not_false, if_true] using h

lemma handleSessionConfirmAck_coherent :
    (handleSessionConfirmAck config host s peer theirs).Coherent config := by
  by_cases hsession : s.slots.hasSession peer = true
  · rcases handleSessionConfirmAck_outcome config host s peer theirs with hstead | ⟨-, heq⟩ |
    ⟨-, -, -, m, hm, heq⟩
    · exact hstead.coherent (compared_coherent h hsession)
    · rwa [heq]
    rw [heq]
    exact discardLocalSession_coherent (hm.coherent h)
  · simpa only [handleSessionConfirmAck, hsession, Bool.not_false, if_true] using h

lemma handleEncryptedMessage_coherent (message) :
    (handleEncryptedMessage config host s peer message).Coherent config := by
  have hopen : (openEncrypted config host s peer message).Coherent config :=
    openEncrypted_coherent h message
  simp only [handleEncryptedMessage]
  split
  · exact processPendingDecryption_rule _ _ _ _ hopen fun t message _ ht =>
      openEncrypted_coherent ht message
  · exact hopen

lemma dispatch_coherent : (dispatch config host s frame freshness).Coherent config := by
  unfold dispatch
  split
  · exact handleKeyPackageMessage_coherent h _
  · exact handleSessionConfirmProbe_coherent h _
  · exact handleSessionConfirmAck_coherent h _
  · exact handleWelcomeMessage_coherent h
  · exact handleEncryptedMessage_coherent h _

lemma processInternalMessage_coherent :
    (processInternalMessage config host s frame).Coherent config := by
  have hver : (s.verified frame).Coherent config := h
  unfold processInternalMessage
  split
  · exact dispatch_coherent h frame none
  split
  · exact hver
  · exact dispatch_coherent hver frame _
  exact dispatch_coherent
    ((noteOlderPayload_steady _ _ frame.sender frame).coherent hver) frame none

end

lemma perform_coherent {op} : (perform config s op).Coherent config := by
  obtain ⟨host, op⟩ := op
  cases op with
  | receive frame => exact processInternalMessage_coherent h frame
  | establish p => exact establishSecureSession_coherent _ _ h
  | ensure p => exact ensureSessionEstablishment_coherent h
  | probe p => exact (sendSessionConfirmationProbe_steady p).coherent h
  | reask p => exact (reaskCorroboration_steady p).coherent h
  | push p => exact Steady.coherent (sendKeyPackageTo_steady host false) h
  | rekey p =>
    obtain ⟨m, hm, heq | heq⟩ := rekeySession_outcome host s p
    · have hafter : perform config s (host, .rekey p) = m := heq
      rw [hafter]
      exact hm.coherent h
    have hafter : perform config s (host, .rekey p) = m.discardLocalSession p := heq
    rw [hafter]
    exact discardLocalSession_coherent (hm.coherent h)
  | deleteSession p => exact h.manualMlsDeleteSession
  | retryWelcome p => exact (retryWelcome_steady p).coherent h
  | welcomeTimeout p => exact (welcomeTimeout_steady p).coherent h
  | restart order => exact h

end

lemma freshDevice_coherent {config localId} : (freshDevice localId).Coherent config where
  confirmed _ h := nomatch h
  awaiting _ h := nomatch h
  retained _ _ h := by cases h

/-- After every run a device's flags and Welcomes belong to groups it holds. -/
lemma run_coherent (config localId) (ops) :
    (runSteps (step config) (freshDevice localId) ops).1.Coherent config :=
  runSteps_preserves (P := Coherent config) (fun _ _ h => perform_coherent h) ops
    freshDevice_coherent

/-- In every run a session is marked only where one is held, and a Welcome kept for sending again
invites its peer into the group that is held for it now, at its epoch. -/
theorem kept_welcomes_current (config : SessionConfig) (localId : PeerId)
    (ops : List (SessionHost × SessionOp)) :
    let s := (runSteps (step config) (freshDevice localId) ops).1
    (∀ p, p ∈ s.slots.confirmedSessions ∨ p ∈ s.slots.bothCreateAwaitingDecrypt →
      s.slots.hasSession p = true) ∧
    ∀ p record, get s.slots.welcomeLifecycles p = some record → ∃ held,
      get s.slots.sessions p = some held ∧ Invites config s.localId p held record.welcome := by
  have h := run_coherent config localId ops
  exact ⟨fun p hp => hp.elim (h.confirmed p) (h.awaiting p), h.retained⟩

end SessionDevice
end OfflineProtocol.SessionSlots
