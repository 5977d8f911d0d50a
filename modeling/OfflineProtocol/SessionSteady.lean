import OfflineProtocol.SessionDevice

/-! Most of what a device does leaves its groups alone: it sends, retries, asks and
counts. -/
namespace OfflineProtocol.SessionSlots
open KeyedTable List

def SlotStore.Offers (t : SlotStore) (reference : PackageRef) : Prop :=
  ∃ own ∈ t.ownPackages, own.package.reference = reference

namespace SlotStore

lemma Offers.claim {t : SlotStore} (h : t.Offers reference)
    (peer other) : (t.claimKeyPackage peer other).Offers reference := by
  obtain ⟨own, hown, rfl⟩ := h
  refine ⟨_, mem_map_of_mem hown, ?_⟩
  split <;> rfl

lemma Offers.mint {t : SlotStore} (h : t.Offers reference)
    {host peer} : (t.mintKeyPackage host peer).Offers reference := by
  obtain ⟨own, hown, rfl⟩ := h
  exact ⟨own, mem_cons_of_mem _ hown, rfl⟩

structure Pushes (t : SlotStore) (push : SlotStore × KeyPackage) : Prop where
  rest : push.1 = { t with ownPackages := push.1.ownPackages }
  offers : ∀ reference, t.Offers reference → push.1.Offers reference
  pushed : push.1.Offers push.2.reference

lemma mintKeyPackage_pushes {t : SlotStore} {host : SessionHost} :
    t.Pushes (t.mintKeyPackage host peer, host.minted) where
  rest := rfl
  offers _ h := h.mint
  pushed := ⟨_, (.head _), rfl⟩

lemma takePushKeyPackage_pushes (t : SlotStore) (host peer) :
    t.Pushes (t.takePushKeyPackage host peer) := by
  -- Whatever is found lies in the pool, and the pool in the store.
  have hpool {own : OwnPackage} (h : own ∈ t.ownPackages.filter (!·.withheld)) :
      t.Offers own.package.reference := ⟨own, (mem_filter.1 h).1, rfl⟩
  simp only [takePushKeyPackage]
  split
  · rename_i own hown
    exact ⟨rfl, fun _ h => h, hpool (mem_of_find?_eq_some hown)⟩
  split
  · rename_i own hown
    exact ⟨rfl, fun _ h => h.claim peer _, (hpool (mem_of_find?_eq_some hown)).claim peer _⟩
  split
  · rename_i own hown
    split
    · exact ⟨rfl, fun _ h => h, hpool (mem_of_head? hown)⟩
    · exact mintKeyPackage_pushes
  · exact mintKeyPackage_pushes

end SlotStore

def SessionGroup.corroboration (held : SessionGroup) (nonce : Nonce) : SessionCorroboration where
  epoch := held.epoch
  nonce := nonce
  tag := { group := held.group, epoch := held.epoch, nonce := nonce }

namespace SessionDevice

def Says (s : SessionDevice) (peer : PeerId) : FrameBody → Prop
  | .keyPackage _ => True
  | .welcome welcome => ∃ record, get s.slots.welcomeLifecycles peer = some record ∧
      record.welcome = welcome
  | .confirmProbe theirs => ∃ held nonce, get s.slots.sessions peer = some held ∧
      theirs = some (held.corroboration nonce)
  | .confirmAck theirs => theirs = none ∨ ∃ held nonce, get s.slots.sessions peer = some held ∧
      theirs = some (held.corroboration nonce)
  | .encrypted message => ∃ held, get s.slots.sessions peer = some held ∧
      peer ∈ s.slots.confirmedSessions ∧ message.group = held.group ∧
      message.epoch = held.epoch ∧ message.senderId = s.localId

structure Steady (peer : PeerId) (s s' : SessionDevice) : Prop where
  localId : s'.localId = s.localId
  records : s'.records = s.records
  sessions : s'.slots.sessions = s.slots.sessions
  confirmed : s'.slots.confirmedSessions = s.slots.confirmedSessions
  awaiting : s'.slots.bothCreateAwaitingDecrypt = s.slots.bothCreateAwaitingDecrypt
  opened : s'.slots.opened = s.slots.opened
  offers : ∀ reference, s.slots.Offers reference → s'.slots.Offers reference
  retained : ∀ p, (get s'.slots.welcomeLifecycles p).map (·.welcome) =
    (get s.slots.welcomeLifecycles p).map (·.welcome)
  handed : ∃ new, s'.outgoing = s.outgoing ++ new ∧
    ∀ sent ∈ new, sent.1 = peer ∧ sent.2.sender = s.localId ∧ s.Says peer sent.2.body

variable {peer : PeerId} {s s' s'' : SessionDevice}

lemma Steady.refl (peer s) : Steady peer s s where
  localId := rfl
  records := rfl
  sessions := rfl
  confirmed := rfl
  awaiting := rfl
  opened := rfl
  offers _ h := h
  retained _ := rfl
  handed := ⟨[], (append_nil _).symm, by simp⟩

lemma Steady.says_iff (h : Steady peer s s') : s'.Says peer body ↔ s.Says peer body := by
  have hwelcome (welcome : WelcomeMessage) (m : SessionDevice) : m.Says peer (.welcome welcome) ↔
        (get m.slots.welcomeLifecycles peer).map (·.welcome) = some welcome := by
    rw [Option.map_eq_some_iff]
    rfl
  cases body with
  | keyPackage payload => rfl
  | welcome welcome => rw [hwelcome, hwelcome, h.retained]
  | confirmProbe theirs => simp only [Says, h.sessions]
  | confirmAck theirs => simp only [Says, h.sessions]
  | encrypted message => simp only [Says, h.sessions, h.confirmed, h.localId]

/-- Steps that leave the groups alone compose. -/
lemma Steady.trans (h : Steady peer s s') (h' : Steady peer s' s'') : Steady peer s s'' where
  localId := h'.localId.trans h.localId
  records := h'.records.trans h.records
  sessions := h'.sessions.trans h.sessions
  confirmed := h'.confirmed.trans h.confirmed
  awaiting := h'.awaiting.trans h.awaiting
  opened := h'.opened.trans h.opened
  offers reference hr := h'.offers reference (h.offers reference hr)
  retained p := (h'.retained p).trans (h.retained p)
  handed := by
    obtain ⟨new, hnew, hallowed⟩ := h.handed
    obtain ⟨new', hnew', hallowed'⟩ := h'.handed
    refine ⟨new ++ new', by rw [hnew', hnew, append_assoc], ?_⟩
    intro sent hsent
    rcases mem_append.1 hsent with hsent | hsent
    · exact hallowed sent hsent
    -- The later frames speak of the same groups.
    obtain ⟨hto, hfrom, hbody⟩ := hallowed' sent hsent
    exact ⟨hto, hfrom.trans h.localId, (h.says_iff).1 hbody⟩

lemma Steady.hasSession (h : Steady peer s s') (p) :
    s'.slots.hasSession p = s.slots.hasSession p := by
  simp only [SlotStore.hasSession, h.sessions]

lemma emit_steady (hfrom : frame.sender = s.localId)
    (hallowed : s.Says peer frame.body) : Steady peer s (s.emit peer frame) :=
  { Steady.refl peer s with
    handed := ⟨[(peer, frame)], rfl, by
      intro sent hsent
      obtain rfl := mem_singleton.1 hsent
      exact ⟨rfl, hfrom, hallowed⟩⟩ }

lemma sendInternalMessage_steady (hallowed : s.Says peer body) :
    Steady peer s (s.sendInternalMessage host peer body) :=
  emit_steady rfl hallowed

/-- A pushed key package touches no group. -/
lemma pushKeyPackage_steady (host reset noSession) :
    Steady peer s (s.pushKeyPackage host peer reset noSession).1 := by
  have hpush := s.slots.takePushKeyPackage_pushes host peer
  have hclaim : Steady peer s { s with slots := (s.slots.takePushKeyPackage host peer).1 } :=
    { Steady.refl peer s with
      sessions := by rw [hpush.rest]
      confirmed := by rw [hpush.rest]
      awaiting := by rw [hpush.rest]
      opened := by rw [hpush.rest]
      offers := hpush.offers
      retained := fun p => by rw [hpush.rest] }
  unfold pushKeyPackage
  split
  · exact hclaim
  apply hclaim.trans
  let m : SessionDevice := { s with slots := (s.slots.takePushKeyPackage host peer).1 }
  let payload : KeyPackagePayload :=
    { package := (s.slots.takePushKeyPackage host peer).2
      sessionReset := reset
      noSession := noSession
      remainingLifetimeMs := (s.slots.takePushKeyPackage host peer).2.notAfter * 1000 - host.now
      ctrlFreshness := true }
  have hemit : Steady peer m (m.emit peer (controlFrame m host peer (.keyPackage payload))) :=
    emit_steady rfl trivial
  exact { hemit with }

lemma sendKeyPackageTo_steady (host reset) :
    Steady peer s (s.sendKeyPackageTo host peer reset).1 :=
  pushKeyPackage_steady _ reset _

lemma sendSessionConfirmEncrypted_steady :
    Steady peer s (s.sendSessionConfirmEncrypted host peer) := by
  unfold sendSessionConfirmEncrypted
  split
  · exact .refl peer s
  rename_i held hheld
  split
  · exact .refl peer s
  rename_i hconfirmed
  have hcount : Steady peer s
      { s with slots := { s.slots with sealedCount := s.slots.sealedCount + 1 } } :=
    { Steady.refl peer s with }
  apply hcount.trans
  exact emit_steady rfl ⟨held, hheld, not_not.1 hconfirmed, rfl, rfl, rfl⟩

section
variable (h : get s.slots.welcomeLifecycles peer = some record)
include h

lemma setWelcome_steady
    (hw : record'.welcome = record.welcome) : Steady peer s (s.setWelcome peer record') :=
  { Steady.refl peer s with
    retained := by
      intro p
      simp only [setWelcome, get_insert]
      split_ifs with hp
      · rw [hp, h]
        exact congrArg some hw
      · rfl }

omit h in
lemma get_setWelcome :
    get (s.setWelcome peer record).slots.welcomeLifecycles peer = some record :=
  get_insert_self

omit h in
lemma transitionWelcomeState_welcome {next : WelcomeDeliveryState}
    (h : transitionWelcomeState record next = some settled) : settled.welcome = record.welcome := by
  unfold transitionWelcomeState at h
  split_ifs at h <;> cases h <;> rfl

omit h in
lemma applyWelcomeSendFailure_welcome {record : WelcomeLifecycleRecord} :
    (applyWelcomeSendFailure config host noCarrier record).welcome = record.welcome := by
  unfold applyWelcomeSendFailure
  split_ifs <;> rfl

omit h in
lemma trySendWelcome_steady : Steady peer s
    (trySendWelcome config host s peer) := by
  simp only [trySendWelcome]
  split
  · exact .refl peer s
  rename_i record hrec
  split
  · exact .refl peer s
  split
  · split
    · rename_i settled hsettled
      exact setWelcome_steady hrec (transitionWelcomeState_welcome hsettled)
    · exact .refl peer s
  split
  · exact setWelcome_steady hrec rfl
  split
  · exact setWelcome_steady hrec rfl
  rename_i attempted hattempt
  have hwelcome := transitionWelcomeState_welcome hattempt
  split
  · -- The frame carries the Welcome the record retains.
    exact (setWelcome_steady hrec hwelcome).trans
      (emit_steady rfl ⟨attempted, get_setWelcome, hwelcome⟩)
  · exact setWelcome_steady hrec (applyWelcomeSendFailure_welcome.trans hwelcome)

lemma upsertWelcomeLifecycle_steady {timestamp} {version} :
    Steady peer s (s.upsertWelcomeLifecycle host peer record.welcome timestamp version).1 := by
  simp only [upsertWelcomeLifecycle, h]
  split
  · exact setWelcome_steady h rfl
  · exact .refl peer s

lemma retryStalledWelcome_steady (hw : record'.welcome = record.welcome) :
    Steady peer s (retryStalledWelcome config host s peer record') := by
  have hreset : Steady peer s (s.setWelcome peer
      { record' with attempt := 0, expiresAt := host.now + welcomeLifecycleTtlMs }) :=
    setWelcome_steady h hw
  exact hreset.trans trySendWelcome_steady

end

lemma resendWelcome_steady :
    Steady peer s (resendWelcome config host s peer peerNeverGotIt) := by
  unfold resendWelcome
  split
  · exact .refl peer s
  rename_i record hrec
  have hagain : Steady peer s (trySendWelcome config host
      (s.upsertWelcomeLifecycle host peer record.welcome record.timestamp record.version).1
      peer) :=
    (upsertWelcomeLifecycle_steady hrec).trans trySendWelcome_steady
  split
  · exact retryStalledWelcome_steady hrec rfl
  · exact retryStalledWelcome_steady hrec rfl
  · split
    · exact .refl peer s
    · exact retryStalledWelcome_steady hrec rfl
  · split
    · exact .refl peer s
    · exact hagain
  · exact hagain

lemma rearmWelcomeForPeer_steady : Steady peer s
    (rearmWelcomeForPeer config host s peer) := by
  unfold rearmWelcomeForPeer
  split
  · exact .refl peer s
  · exact resendWelcome_steady

lemma retryWelcome_steady (peer) : Steady peer s (retryWelcome config host s peer) := by
  unfold retryWelcome
  split
  · exact .refl peer s
  split
  · exact trySendWelcome_steady
  · exact .refl peer s

lemma welcomeTimeout_steady (peer) : Steady peer s (welcomeTimeout config host s peer) := by
  unfold welcomeTimeout
  split
  · exact .refl peer s
  rename_i record hrec
  split
  · exact setWelcome_steady hrec applyWelcomeSendFailure_welcome
  · exact .refl peer s

lemma checks_steady (peer s checks) : Steady peer s { s with checks := checks } :=
  { Steady.refl peer s with }

lemma corroborationBody_eq {t : SlotStore} (h : t.corroborationBody peer nonce = some body) :
    ∃ held, get t.sessions peer = some held ∧ body = held.corroboration nonce := by
  obtain ⟨held, hheld, hbody⟩ := Option.map_eq_some_iff.1 h
  exact ⟨held, hheld, hbody.symm⟩

lemma sessionChallengeBody_steady (host) (s : SessionDevice) (peer) :
    Steady peer s (s.sessionChallengeBody host peer).1 := by
  simp only [sessionChallengeBody]
  split
  · exact .refl peer s
  · exact checks_steady peer s _

lemma sessionChallengeBody_says {s : SessionDevice}
    (h : (s.sessionChallengeBody host peer).2 = some challenge) :
    s.Says peer (.confirmProbe (some challenge)) := by
  simp only [sessionChallengeBody] at h
  split at h
  · cases h
  rename_i body hbody
  obtain ⟨held, hheld, rfl⟩ := corroborationBody_eq hbody
  exact ⟨held, _, hheld, by rw [← Option.some.inj h]⟩

lemma sendSessionConfirmationProbe_steady (peer) :
    Steady peer s (s.sendSessionConfirmationProbe host peer) := by
  have hchallenge := sessionChallengeBody_steady host s peer
  unfold sendSessionConfirmationProbe
  split
  · rename_i m hm
    rw [hm] at hchallenge
    exact hchallenge
  rename_i m challenge hm
  have hallowed := sessionChallengeBody_says (by rw [hm])
  rw [hm] at hchallenge
  exact hchallenge.trans (sendInternalMessage_steady ((hchallenge.says_iff).2 hallowed))

lemma requestSessionCorroboration_steady :
    Steady peer s (s.requestSessionCorroboration host peer) := by
  have hchallenge := sessionChallengeBody_steady host s peer
  unfold requestSessionCorroboration
  split
  · exact .refl peer s
  split
  · rename_i m hm
    rw [hm] at hchallenge
    exact hchallenge
  rename_i m challenge hm
  have hallowed := sessionChallengeBody_says (by rw [hm])
  rw [hm] at hchallenge
  have hlimit := hchallenge.trans (checks_steady peer m { m.checks with
    corroborationDueAt :=
      trackIn m.checks.corroborationDueAt peer (host.now + rekeyIntervalMs) })
  exact hlimit.trans (sendInternalMessage_steady ((hlimit.says_iff).2 hallowed))

lemma reaskCorroboration_steady (peer) : Steady peer s (s.reaskCorroboration host peer) := by
  unfold reaskCorroboration
  split
  · exact .refl peer s
  split
  · exact .refl peer s
  · exact (checks_steady peer s _).trans requestSessionCorroboration_steady

lemma claimRekeySlot_steady (host) (s : SessionDevice) (peer) : Steady
    peer s (s.claimRekeySlot host peer).1 := by
  unfold claimRekeySlot
  split
  · exact .refl peer s
  · exact checks_steady peer s _

end SessionDevice
end OfflineProtocol.SessionSlots
