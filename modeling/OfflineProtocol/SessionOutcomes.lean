import OfflineProtocol.SessionSteady

/-! What each handler comes to. -/
namespace OfflineProtocol.SessionSlots
open KeyedTable SlotStore

namespace SessionDevice
variable {peer : PeerId} {s : SessionDevice} {config : SessionConfig} {host : SessionHost}

section
variable (config : SessionConfig) (host : SessionHost) (s : SessionDevice) (peer : PeerId)
  (payload : KeyPackagePayload) (theirs : Option SessionCorroboration)
  (source : ConfirmSource)

def compared (s : SessionDevice) (peer : PeerId) (theirs : Option SessionCorroboration)
    (source : ConfirmSource) : SessionDevice :=
  match corroborateSession s.slots peer theirs with
  | .agrees => { s with slots := s.slots.confirmSessionState peer .sessionCorroborated }
  | .absent => { s with slots := s.slots.confirmSessionState peer source }
  | .split => s
  | .inconclusive => s

lemma discardLocalSession_slots : s.discardLocalSession peer = s ∨
      s.discardLocalSession peer = { s with slots := s.slots.manualMlsDeleteSession peer } := by
  unfold discardLocalSession
  split
  · exact .inr rfl
  · exact .inl rfl

/-- A split is ended only by the side that gives way, on the answer to its own
challenge. -/
lemma healSplitSession_outcome (answered) :
    Steady peer s (healSplitSession config host s peer answered) ∨
      (config.book.givesWayTo s.localId peer = true ∧ answered = true ∧ ∃ m, Steady peer s m ∧
          healSplitSession config host s peer answered = m.discardLocalSession peer) := by
  have hclaim := claimRekeySlot_steady host s peer
  simp only [healSplitSession]
  split
  · exact .inl (.refl peer s)
  rename_i hgives
  split
  · exact .inl requestSessionCorroboration_steady
  rename_i hanswered
  have hpush := hclaim.trans (pushKeyPackage_steady host false true)
  split
  · exact .inl (checks_steady peer s _)
  split
  · exact .inl (hpush.trans (checks_steady peer _ _))
  · exact .inr ⟨by simpa using hgives, by simpa using hanswered, _, hpush, rfl⟩

def ChallengeLive (s : SessionDevice) (peer : PeerId) (nonce : Nonce) : Prop :=
  get s.checks.corroborationChallenges peer = some (nonce, s.slots.sessionIncarnation peer)

lemma answersLiveChallenge_eq (nonce) :
    ∃ checks answered, s.answersLiveChallenge peer nonce = ({ s with checks := checks }, answered) ∧
      (answered = true ↔ s.ChallengeLive peer nonce) := by
  simp only [answersLiveChallenge, ChallengeLive]
  split
  · rename_i hnone
    exact ⟨s.checks, false, rfl, by simp [hnone]⟩
  rename_i issued issuedUnder hsome
  split
  · rename_i hissued
    exact ⟨_, _, rfl, by simp [hsome, hissued]⟩
  rename_i hissued
  exact ⟨s.checks, false, rfl, by simp [hsome, hissued]⟩

lemma challengeAnswered_eq : ∃ checks answered,
      s.challengeAnswered peer theirs source = ({ s with checks := checks }, answered) ∧
      (answered = true ↔ source = .confirmationAckReceived ∧
        ∃ c, theirs = some c ∧ s.ChallengeLive peer c.nonce) := by
  cases theirs with
  | none => exact ⟨s.checks, false, rfl, by simp⟩
  | some c =>
    simp only [challengeAnswered]
    split
    · rename_i hsource
      obtain ⟨checks, answered, heq, hlive⟩ := answersLiveChallenge_eq s peer c.nonce
      exact ⟨checks, answered, heq, by simp [hlive, hsource]⟩
    rename_i hsource
    exact ⟨s.checks, false, rfl, by simp [hsource]⟩

lemma processPendingDecryption_rule {P : SessionDevice → Prop} (h : P s)
    (hopen : ∀ t, ∀ message ∈ host.waiting, P t → P (openEncrypted config host t peer message)) :
    P (processPendingDecryption config host s peer) := by
  unfold processPendingDecryption
  split
  · exact h
  · exact List.foldlRecOn _ _ h fun t ht message hmem => hopen t message hmem ht

/-- The device does what is steady, drains the queue of the peer or leaves it, and does
what is steady again. -/
def Drains (s' : SessionDevice) : Prop :=
  ∃ m d, Steady peer s m ∧ (d = m ∨ d = processPendingDecryption config host m peer) ∧
    Steady peer d s'

variable {config host s peer} in
lemma Drains.trans_steady {s' s''} (h : Drains config host s peer s') (h' : Steady peer s' s'') :
    Drains config host s peer s'' := by
  obtain ⟨m, d, hm, hd, hs⟩ := h
  exact ⟨m, d, hm, hd, hs.trans h'⟩

variable {config host s peer} in
lemma Drains.rule {s'} {P : SessionDevice → Prop} (h : Drains config host s peer s')
    (hsteady : ∀ t t', Steady peer t t' → P t → P t')
    (hopen : ∀ t, ∀ message ∈ host.waiting, P t → P (openEncrypted config host t peer message))
    (hs : P s) : P s' := by
  obtain ⟨m, d, hm, rfl | rfl, hd⟩ := h
  · exact hsteady _ _ hd (hsteady _ _ hm hs)
  · exact hsteady _ _ hd (processPendingDecryption_rule config host m peer (hsteady _ _ hm hs) hopen)

lemma applySessionCorroboration_outcome :
    Drains config host (s.compared peer theirs source) peer
        (applySessionCorroboration config host s peer theirs source) ∨
      (corroborateSession s.slots peer theirs = .split ∧
        config.book.givesWayTo s.localId peer = true ∧ source = .confirmationAckReceived ∧
        (∃ c, theirs = some c ∧ s.ChallengeLive peer c.nonce) ∧
        ∃ m, Steady peer s m ∧ applySessionCorroboration config host s peer theirs source =
            m.discardLocalSession peer) := by
  obtain ⟨checks, answered, hasked, hlive⟩ :=
    challengeAnswered_eq s peer theirs source
  have hconfirmed (source : SlotStore.ConfirmSource) (confirms : Bool) :
      Drains config host { s with slots := s.slots.confirmSessionState peer source } peer
        (if confirms then
          processPendingDecryption config host
            { s with checks := checks, slots := s.slots.confirmSessionState peer source } peer
        else { s with checks := checks, slots := s.slots.confirmSessionState peer source }) := by
    refine ⟨_, _, checks_steady peer _ checks, ?_, .refl peer _⟩
    cases confirms with
    | true => exact .inr rfl
    | false => exact .inl rfl
  simp only [applySessionCorroboration, compared, hasked]
  cases hc : corroborateSession s.slots peer theirs with
  | agrees => exact .inl (hconfirmed _ _)
  | absent => exact .inl (hconfirmed _ _)
  | inconclusive => exact .inl ⟨_, _, checks_steady peer _ checks, .inl rfl, .refl peer _⟩
  | split =>
    have hcheck := checks_steady peer s checks
    rcases healSplitSession_outcome config host ({ s with checks := checks }) peer answered with h
      | ⟨hgives, hanswered, m, hm, heq⟩
    · exact .inl ⟨_, _, hcheck.trans h, .inl rfl, .refl peer _⟩
    obtain ⟨hsource, hc⟩ := hlive.1 hanswered
    exact .inr ⟨rfl, hgives, hsource, hc, m, hcheck.trans hm, heq⟩

lemma handleSessionConfirmProbe_outcome :
    Drains config host (s.compared peer theirs .confirmationProbeReceived) peer
        (handleSessionConfirmProbe config host s peer theirs) ∨
      s.slots.hasSession peer = false ∧ handleSessionConfirmProbe config host s peer theirs = s :=
        by
  simp only [handleSessionConfirmProbe]
  split
  · rename_i hnone
    exact .inr ⟨by simpa using hnone, rfl⟩
  left
  have hcomp : Drains config host (s.compared peer theirs .confirmationProbeReceived) peer
      (applySessionCorroboration config host s peer theirs .confirmationProbeReceived) := by
    rcases applySessionCorroboration_outcome config host s peer theirs .confirmationProbeReceived
      with h | ⟨-, -, hsource, -⟩
    · exact h
    · cases hsource
  cases theirs with
  | none => exact hcomp.trans_steady (sendInternalMessage_steady (.inl rfl))
  | some c =>
    split
    · exact hcomp
    rename_i answer hanswer
    obtain ⟨body, hbody, rfl⟩ := Option.map_eq_some_iff.1 hanswer
    obtain ⟨held, hheld, rfl⟩ := corroborationBody_eq hbody
    exact hcomp.trans_steady (sendInternalMessage_steady (.inr ⟨held, c.nonce, hheld, rfl⟩))

lemma handleSessionConfirmAck_outcome :
    Drains config host (s.compared peer theirs .confirmationAckReceived) peer
        (handleSessionConfirmAck config host s peer theirs) ∨
      s.slots.hasSession peer = false ∧ handleSessionConfirmAck config host s peer theirs = s ∨
      (corroborateSession s.slots peer theirs = .split ∧
        config.book.givesWayTo s.localId peer = true ∧
        (∃ c, theirs = some c ∧ s.ChallengeLive peer c.nonce) ∧
        ∃ m, Steady peer s m ∧
          handleSessionConfirmAck config host s peer theirs = m.discardLocalSession peer) := by
  unfold handleSessionConfirmAck
  split
  · rename_i hnone
    exact .inr (.inl ⟨by simpa using hnone, rfl⟩)
  rcases applySessionCorroboration_outcome config host s peer theirs .confirmationAckReceived
  with h | ⟨hsplit, hgives, -, hlive, hm⟩
  · exact .inl h
  · exact .inr (.inr ⟨hsplit, hgives, hlive, hm⟩)

lemma scheduleSessionRekey_outcome :
    ∃ m, Steady peer s m ∧ (s.scheduleSessionRekey host peer = m ∨
      s.scheduleSessionRekey host peer = m.discardLocalSession peer) := by
  have hclaim := claimRekeySlot_steady host s peer
  have hsend := hclaim.trans (sendKeyPackageTo_steady host true)
  simp only [scheduleSessionRekey, driveSessionRekey]
  split
  · exact ⟨_, hclaim, .inl rfl⟩
  split
  · exact ⟨_, hsend, .inr rfl⟩
  · exact ⟨_, hsend, .inr rfl⟩

lemma rekeySession_outcome : ∃ m, Steady peer s m ∧ (s.rekeySession host peer = m ∨
      s.rekeySession host peer = m.discardLocalSession peer) := by
  have hclaim := claimRekeySlot_steady host s peer
  have hsend := hclaim.trans (sendKeyPackageTo_steady host true)
  simp only [rekeySession, driveSessionRekey]
  split
  · exact ⟨s, .refl peer s, .inl rfl⟩
  split
  · exact ⟨_, hclaim, .inl rfl⟩
  split
  · exact ⟨_, hsend, .inr rfl⟩
  · exact ⟨_, hsend.trans (checks_steady peer _ _), .inl rfl⟩

def openedFrom (s : SessionDevice) (peer : PeerId) (message : EncryptedMessage) : SessionDevice :=
  { s with slots := { s.slots with opened := message :: s.slots.opened }
    }.confirmSessionFromSuccessfulDecrypt peer

lemma openEncrypted_outcome (message) :
    Steady peer s (openEncrypted config host s peer message) ∨
      (∃ held, get s.slots.sessions peer = some held ∧ message.epoch ≠ held.epoch ∧
        ∃ m, Steady peer s m ∧
          openEncrypted config host s peer message = m.discardLocalSession peer) ∨
      (∃ held, get s.slots.sessions peer = some held ∧ message.group = held.group ∧
        message.senderId = peer ∧
        openEncrypted config host s peer message = s.openedFrom peer message) := by
  unfold openEncrypted
  split
  · exact .inl (.refl peer s)
  rename_i held hheld
  split
  · rename_i hepoch
    split
    · obtain ⟨m, hm, h | h⟩ := scheduleSessionRekey_outcome host s peer
      · exact .inl (h ▸ hm)
      · exact .inr (.inl ⟨held, hheld, hepoch, m, hm, h⟩)
    · exact .inl requestSessionCorroboration_steady
  · split
    · exact .inl requestSessionCorroboration_steady
    rename_i hmatch
    split
    · exact .inl (.refl peer s)
    rename_i hsender
    push Not at hmatch hsender
    exact .inr (.inr ⟨held, hheld, hmatch.1, hsender, rfl⟩)

lemma noteOlderPayload_steady (frame) : Steady peer s (noteOlderPayload config s frame) := by
  unfold noteOlderPayload
  split
  · exact { Steady.refl peer s with }
  · exact .refl peer s

lemma pending_steady {s cache} :
    Steady peer s { s with slots := { s.slots with pendingKeyPackages := cache } } :=
  { Steady.refl peer s with }

lemma learnAdvertised_steady : Steady peer s (s.learnAdvertised peer payload) :=
  { Steady.refl peer s with }

lemma cacheAndReciprocate_steady (timestamp) :
    Steady peer s (cacheAndReciprocate config host s peer payload timestamp) := by
  simp only [cacheAndReciprocate, cacheKeyPackage]
  split
  · exact (pending_steady peer).trans (sendKeyPackageTo_steady _ false)
  · exact pending_steady peer

def started (config : SessionConfig) (host : SessionHost) (s : SessionDevice) (peer : PeerId)
    (received : ReceivedKeyPackage) : SessionDevice :=
  let built := createGroup config host s peer received
  let signed := built.1.controlFrame host peer (.welcome built.2)
  built.1.setWelcome peer (createdWelcome host built.2 signed.timestamp signed.version)

end

lemma sendWelcomeMessage_eq (hnone : get s.slots.welcomeLifecycles peer = none) (welcome) :
    sendWelcomeMessage config host s peer welcome =
      (trySendWelcome config host (s.setWelcome peer (createdWelcome host welcome host.now
        (s.controlFrame host peer (.welcome welcome)).version)) peer, true) := by
  simp only [sendWelcomeMessage, upsertWelcomeLifecycle, hnone]
  rfl

lemma buildFromPending_outcome (config host) (hnone : get s.slots.welcomeLifecycles peer = none) :
    let r := buildFromPending config host s peer
    r.2 = .notReady ∧ Steady peer s r.1 ∨
      r.2 = .created ∧
        ∃ received, get s.slots.pendingKeyPackages peer = some received ∧
          received.package.importable config.book peer host.now = true ∧
          Steady peer (started config host s peer received) r.1 := by
  simp only [buildFromPending]
  split
  · exact .inl ⟨rfl, .refl peer s⟩
  rename_i received hrec
  split
  · exact .inl ⟨rfl, pending_steady peer⟩
  split
  · exact .inl ⟨rfl, .refl peer s⟩
  rename_i himport
  have hnone' : get (createGroup config host s peer received).1.slots.welcomeLifecycles peer =
      none := hnone
  rw [sendWelcomeMessage_eq hnone', if_pos rfl]
  refine .inr ⟨rfl, received, hrec, by simpa using himport, ?_⟩
  exact trySendWelcome_steady.trans (pending_steady peer)

lemma establishSecureSession_outcome (config host)
    (s peer) (hnone : s.slots.hasSession peer = false → get s.slots.welcomeLifecycles peer = none) :
    let r := establishSecureSession config host s peer
    r.2 ≠ .created ∧ Steady peer s r.1 ∨
      r.2 = .created ∧ s.slots.hasSession peer = false ∧
        ∃ received, get s.slots.pendingKeyPackages peer = some received ∧
          received.package.importable config.book peer host.now = true ∧
          Steady peer (started config host s peer received) r.1 := by
  simp only [establishSecureSession]
  split
  · exact .inl ⟨by simp, .refl peer s⟩
  split
  · exact .inl ⟨by simp, .refl peer s⟩
  rename_i hsession
  have hfree : s.slots.hasSession peer = false := by simpa using hsession
  rcases buildFromPending_outcome config host (hnone hfree) with
    ⟨hstate, hsteady⟩ | ⟨hstate, received, hrec, himport, hsteady⟩
  · rw [hstate]
    exact .inl ⟨by simp [hstate], hsteady⟩
  rw [hstate]
  right
  simp only
  split
  · exact ⟨rfl, hfree, received, hrec, himport, hsteady.trans (sendKeyPackageTo_steady _ false)⟩
  · exact ⟨hstate, hfree, received, hrec, himport, hsteady⟩

/-- The Welcome takes the slot: it is for this pair, it names a package on offer,
its tree holds, and no group of our own outranks it. -/
structure Joins (config : SessionConfig) (s : SessionDevice) (sender : PeerId)
    (welcome : WelcomeMessage) : Prop where
  inviter : welcome.inviterId = sender
  slot : welcome.groupId = config.book.forSession s.localId sender
  offered : s.slots.Offers welcome.newMember
  proven : welcome.leavesProven = true
  yields : s.slots.hasSession sender = true → config.book.givesWayTo s.localId sender = true

def adopted (host : SessionHost) (s : SessionDevice) (sender : PeerId) (welcome : WelcomeMessage)
    (timestamp : ℤ) (freshness : Option ℤ) : SessionDevice :=
  noteAdoption host
    { s with
      slots := s.slots.install host welcome timestamp
      records := s.records.markEncryptionCapable s.localId sender }
    sender freshness (s.slots.hasSession sender)

def joined (host : SessionHost) (s : SessionDevice) (sender : PeerId) (welcome : WelcomeMessage)
    (timestamp : ℤ) (freshness : Option ℤ) : SessionDevice :=
  let m := adopted host s sender welcome timestamp freshness
  { m with slots := m.slots.confirmSessionState sender .welcomeReceived }

lemma concludeAdoption_drains :
    Drains config host { s with slots := s.slots.confirmSessionState peer .welcomeReceived } peer
      (concludeAdoption config host s peer) := by
  refine ⟨_, _, .refl peer _, .inr rfl, ?_⟩
  simp only [concludeAdoption]
  split
  · exact (sendKeyPackageTo_steady _ false).trans sendSessionConfirmEncrypted_steady
  · exact .refl peer _

lemma joinSession_joins {host} (h : Joins config s sender welcome) :
    s.slots.joinSession config host s.localId welcome timestamp =
      (s.slots.install host welcome timestamp, none) := by
  obtain ⟨rfl, hslot, hoffered, hproven, -⟩ := h
  have hoffered' : ¬¬∃ own ∈ s.slots.ownPackages,
      own.package.reference = welcome.newMember := not_not.2 hoffered
  rw [joinSession, if_neg (not_not.2 hslot), if_neg hoffered', hproven]
  rfl

lemma handleWelcomeMessage_joins (host)
    (h : Joins config s sender welcome) (timestamp freshness) :
    Drains config host (joined host s sender welcome timestamp freshness) sender
      (handleWelcomeMessage config host s sender welcome timestamp freshness) := by
  have hbranch : adoptWelcome config host s sender welcome timestamp =
      (s.slots.install host welcome timestamp, .adopted, s.slots.hasSession sender) := by
    simp only [adoptWelcome, joinSession_joins h]
    split
    · rename_i hsession
      rw [if_pos (h.yields hsession), hsession]
    rename_i hsession
    rw [Bool.not_eq_true] at hsession
    rw [hsession]
  simp only [handleWelcomeMessage, hbranch, if_neg (not_not.2 h.inviter)]
  exact concludeAdoption_drains

/-- What a Welcome that does not take the slot may do to the store: spend the
package of a tree that failed its check, or set the gate of a side that keeps its
own group. -/
inductive KeptOver (config : SessionConfig) (s : SessionDevice) (sender : PeerId)
    (welcome : WelcomeMessage) : SlotStore → Prop
  | same : KeptOver config s sender welcome s.slots
  | spent (h : welcome.leavesProven = false) :
      KeptOver config s sender welcome (s.slots.consume welcome.newMember)
  | gated (hsession : s.slots.hasSession sender = true)
      (hkeeps : config.book.givesWayTo s.localId sender = false)
      (hunconfirmed : sender ∉ s.slots.confirmedSessions) :
      KeptOver config s sender welcome (s.slots.markBothCreateAwaitingDecrypt sender)

lemma joinSession_fails {timestamp : ℤ}
    (h : (s.slots.joinSession config host s.localId welcome timestamp).2 ≠ none) (sender) :
    KeptOver config s sender welcome
      (s.slots.joinSession config host s.localId welcome timestamp).1 := by
  unfold joinSession at h ⊢
  split
  · exact .same
  split
  · exact .same
  split
  · rename_i hleaver
    exact .spent (by simpa using hleaver)
  · simp_all

lemma joins_of_joinSession {timestamp : ℤ} (hinvite : welcome.inviterId = sender)
    (h : (s.slots.joinSession config host s.localId welcome timestamp).2 = none)
    (hyield : s.slots.hasSession sender = true → config.book.givesWayTo s.localId sender = true) :
    Joins config s sender welcome := by
  subst hinvite
  unfold joinSession at h
  split at h
  · cases h
  rename_i hslot
  split at h
  · cases h
  rename_i hoffered
  split at h
  · cases h
  rename_i hproven
  exact ⟨rfl, not_not.1 hslot, not_not.1 hoffered, by simpa using hproven, hyield⟩

lemma handleWelcomeMessage_keeps (host)
    (h : ¬Joins config s sender welcome) (timestamp freshness) :
    handleWelcomeMessage config host s sender welcome timestamp freshness = s ∨
      ∃ kept, KeptOver config s sender welcome kept ∧ Steady sender
          { s with slots := kept, records := s.records.markEncryptionCapable s.localId sender }
          (handleWelcomeMessage config host s sender welcome timestamp freshness) := by
  by_cases hinvite : welcome.inviterId = sender
  swap
  · left
    simp only [handleWelcomeMessage, if_pos hinvite]
  right
  -- A refused Welcome is answered with the proof the peer may have missed, or not at all.
  have hres (m : SessionDevice) : Steady sender m (if config.encryptionEnabled then
        ((m.sendSessionConfirmEncrypted host sender).sendKeyPackageTo host sender false).1
      else m) := by
    split
    · exact sendSessionConfirmEncrypted_steady.trans (sendKeyPackageTo_steady _ false)
    · exact .refl sender m
  have hfails (hne : (s.slots.joinSession config host s.localId welcome timestamp).2 ≠ none) :=
    joinSession_fails hne sender
  simp only [handleWelcomeMessage, if_neg (not_not.2 hinvite), adoptWelcome]
  by_cases hsession : s.slots.hasSession sender = true
  · simp only [hsession, if_true]
    by_cases hyield : config.book.givesWayTo s.localId sender = true
    · simp only [hyield, if_true]
      cases hj : (s.slots.joinSession config host s.localId welcome timestamp).2 with
      | none => exact absurd (joins_of_joinSession hinvite hj fun _ => hyield) h
      | some e =>
        have hkept := hfails (by rw [hj]; simp)
        cases e with
        | welcomeIdentityMismatch => exact ⟨_, hkept, hres _⟩
        | welcomeProcessing => exact ⟨_, hkept, hres _⟩
        | unprovenLeaf => exact ⟨_, hkept, .refl sender _⟩
    simp only [hyield, Bool.false_eq_true, if_false]
    split
    · rename_i hbranch
      split at hbranch
      all_goals cases hbranch
    · rename_i hbranch
      split at hbranch
      · rename_i howner
        refine ⟨_, .gated hsession (by simpa using hyield) howner.2, ?_⟩
        rw [if_pos howner]
        split
        · exact sendKeyPackageTo_steady _ false
        · exact .refl sender _
      · cases hbranch
    · rename_i hbranch
      split at hbranch
      · cases hbranch
      rename_i howner
      refine ⟨_, .same, ?_⟩
      rw [if_neg howner]
      exact hres _
    · rename_i hbranch
      split at hbranch
      all_goals cases hbranch
  · simp only [hsession, Bool.false_eq_true, if_false]
    cases hj : (s.slots.joinSession config host s.localId welcome timestamp).2 with
    | none => exact absurd (joins_of_joinSession hinvite hj fun h => absurd h hsession) h
    | some e =>
      have hkept := hfails (by rw [hj]; simp)
      exact ⟨_, hkept, .refl sender _⟩

end SessionDevice
end OfflineProtocol.SessionSlots
