import OfflineProtocol.PreSessionQueue
import Mathlib.Algebra.Order.Group.Multiset
import Mathlib.Tactic.Abel

/-! What the pre-session queue does with the ids in it: what leaves, what comes back
behind its session, and what a flush does with a whole queue, whose order it keeps. -/
namespace OfflineProtocol.PreSessionQueue
open KeyedTable Multiset List
variable (f : PreSessionEvent → Option MessageId) (config : PreSessionConfig)
  (q : PreSessionQueue) (ms : List PendingMessage) (now : ℕ) (p : PeerId) (m : PendingMessage)
  (reason : WelcomeReasonCode)

section
variable (incoming : ℕ) (at_ : ℕ)

  {next : PreSessionQueue → Option (PendingMessage × PreSessionQueue)}

def idsOf : Multiset MessageId :=
  ((ms.map (·.messageId) : List MessageId) : Multiset MessageId)

def queuedIds : Multiset MessageId := tally q.pendingEncryptedMessages idsOf

def failedId : PreSessionEvent → Option MessageId
  | .failed id _ => some id
  | _ => none

def mintedId : PreSessionEvent → Option MessageId
  | .queued _ id => some id
  | _ => none

def pickIds (log : List PreSessionEvent) :
    Multiset MessageId :=
  (log.filterMap f : List MessageId)

@[simp] lemma idsOf_nil : idsOf [] = 0 := rfl

@[simp] lemma idsOf_cons (ms) : idsOf (m :: ms) = {m.messageId} + idsOf ms := rfl

@[simp] lemma idsOf_append (ms ns) : idsOf (ms ++ ns) = idsOf ms + idsOf ns := by
  simp [idsOf]

@[simp] lemma pickIds_nil : pickIds f [] = 0 := rfl

@[simp] lemma pickIds_append (l1 l2) : pickIds f (l1 ++ l2) = pickIds f l1 + pickIds f l2 := by
  simp [pickIds, filterMap_append]

@[simp] lemma failedIds_map (reason) :
    pickIds failedId (ms.map fun m => .failed m.messageId reason) = idsOf ms := by
  simp [pickIds, idsOf, List.filterMap_map, Function.comp_def, failedId]

lemma queueFor_setQueue (p p' ms) :
    (q.setQueue p ms).queueFor p' = if p' = p then ms else q.queueFor p' := by
  unfold setQueue queueFor
  by_cases hms : ms.isEmpty
  · simp only [hms, if_true, get_erase]
    by_cases hp : p' = p
    · simp [hp, isEmpty_iff.1 hms]
    · simp [hp]
  · simp only [hms, Bool.false_eq_true, if_false, get_insert]
    by_cases hp : p' = p
    · simp [hp]
    · simp [hp]

lemma queuedIds_insert (ms) :
    tally (q.pendingEncryptedMessages.insert p ms) idsOf + idsOf (q.queueFor p) =
      q.queuedIds + idsOf ms := by
  unfold queuedIds queueFor
  cases h : get q.pendingEncryptedMessages p with
  | none =>
    have hnew := get_eq_none_iff.1 h
    rw [tally_insert_new _ _ hnew, Option.getD_none, idsOf_nil]
    abel
  | some old =>
    have herase := tally_erase q.pendingEncryptedMessages idsOf h
    rw [tally_insert, Option.getD_some, ← herase]
    abel

lemma queuedIds_setQueue (ms) :
    (q.setQueue p ms).queuedIds + idsOf (q.queueFor p) = q.queuedIds + idsOf ms := by
  by_cases hms : ms.isEmpty
  · obtain rfl := isEmpty_iff.1 hms
    simp only [queuedIds, setQueue, isEmpty_nil, if_true, idsOf_nil, add_zero]
    unfold queueFor
    cases h : get q.pendingEncryptedMessages p with
    | none =>
      have hsame : q.pendingEncryptedMessages.erase p = q.pendingEncryptedMessages := by
        apply AList.ext
        exact kerase_of_notMem_keys (get_eq_none_iff.1 h)
      rw [hsame, Option.getD_none, idsOf_nil, add_zero]
    | some old => exact tally_erase q.pendingEncryptedMessages idsOf h
  · have h := queuedIds_insert q p ms
    simpa only [queuedIds, setQueue, hms, Bool.false_eq_true, if_false] using h

structure Loses (q q' : PreSessionQueue) (gone : Multiset MessageId) : Prop where
  ids : q'.queuedIds + gone = q.queuedIds
  shrinks : ∀ p, (q'.queueFor p).Sublist (q.queueFor p)
  seen : q'.seen = q.seen
  minted : q'.minted = q.minted

lemma Loses.refl : Loses q q 0 :=
  ⟨add_zero _, fun _ => List.Sublist.refl _, rfl, rfl⟩

lemma Loses.trans {q q' q''}
    (h : Loses q q' gone) (h' : Loses q' q'' gone') : Loses q q'' (gone + gone') where
  ids := by
    rw [← h.ids, ← h'.ids]
    abel
  shrinks p := (h'.shrinks p).trans (h.shrinks p)
  seen := h'.seen.trans h.seen
  minted := h'.minted.trans h.minted

lemma Loses.setQueue {q p ms gone}
    (hsub : ms.Sublist (q.queueFor p)) (hids : idsOf ms + idsOf gone = idsOf (q.queueFor p)) :
    Loses q (q.setQueue p ms) (idsOf gone) where
  ids := by
    have h := queuedIds_setQueue q p ms
    rw [← hids, add_comm (idsOf ms), ← add_assoc] at h
    exact add_right_cancel h
  shrinks p' := by
    rw [queueFor_setQueue]
    by_cases hp : p' = p
    · rw [if_pos hp, hp]
      exact hsub
    · rw [if_neg hp]
  seen := rfl
  minted := rfl

lemma Loses.take : Loses q (q.setQueue p []) (idsOf (q.queueFor p)) := by
  apply Loses.setQueue
  · exact nil_sublist _
  · rw [idsOf_nil, zero_add]

lemma loses_recompute {q q'} {config} (h : Loses q q' gone) :
    Loses q (q'.recomputeNextPendingMessageExpiry config) gone :=
  ⟨h.ids, h.shrinks, h.seen, h.minted⟩

lemma evictPendingMessageAt_loses {q q' p m}
    (h : q.evictPendingMessageAt p i = some (m, q')) : Loses q q' (idsOf [m]) := by
  unfold evictPendingMessageAt at h
  cases hm : (q.queueFor p)[i]? with
  | none =>
    rw [hm] at h
    cases h
  | some m' =>
    rw [hm] at h
    obtain ⟨rfl, rfl⟩ := Prod.mk.injEq .. ▸ Option.some.inj h
    obtain ⟨hi, hget⟩ := List.getElem?_eq_some_iff.1 hm
    apply Loses.setQueue
    · exact eraseIdx_sublist _ _
    -- The queue is the evicted message put back where it stood.
    have hperm : ((q.queueFor p).eraseIdx i ++ [m']).Perm (q.queueFor p) := by
      rw [← hget]
      exact (perm_append_singleton _ _).trans (getElem_cons_eraseIdx_perm hi)
    rw [← idsOf_append]
    exact coe_eq_coe.2 (hperm.map _)

lemma evictOldestPendingMessage_loses {q q' m}
    (h : q.evictOldestPendingMessage = some (m, q')) : Loses q q' (idsOf [m]) := by
  unfold evictOldestPendingMessage at h
  cases hp : q.oldestPlace with
  | none =>
    rw [hp] at h
    cases h
  | some place =>
    rw [hp] at h
    exact evictPendingMessageAt_loses h

lemma evictWhile_loses (hnext : ∀ q m q', next q = some (m, q') → Loses q q' (idsOf [m]))
    (fuel q) :
    Loses q (evictWhile next tooFull fuel q).2 (idsOf (evictWhile next tooFull fuel q).1) := by
  induction fuel generalizing q with
  | zero => exact .refl q
  | succ fuel ih =>
    unfold evictWhile
    by_cases hover : tooFull q
    · rw [if_pos hover]
      cases hn : next q with
      | none => exact .refl q
      | some evicted =>
        have h := (hnext q _ _ hn).trans (ih evicted.2)
        simpa using h
    · rw [if_neg hover]
      exact .refl q

lemma makeRoom_loses : Loses q (q.makeRoom p incoming).2 (idsOf (q.makeRoom p incoming).1) := by
  have own : ∀ q m q', evictPendingMessageAt q p 0 = some (m, q') → Loses q q' (idsOf [m]) :=
    fun _ _ _ => evictPendingMessageAt_loses
  have oldest : ∀ q m q', evictOldestPendingMessage q = some (m, q') → Loses q q' (idsOf [m]) :=
    fun _ _ _ => evictOldestPendingMessage_loses
  unfold makeRoom
  simp only [idsOf_append]
  apply Loses.trans
  · apply Loses.trans
    · apply Loses.trans
      · exact evictWhile_loses own _ q
      · exact evictWhile_loses own _ _
    · exact evictWhile_loses oldest _ _
  · exact evictWhile_loses oldest _ _

lemma dropPendingQueueForPeer_loses (reason) :
    Loses q (q.dropPendingQueueForPeer config p reason).1
      (pickIds failedId (q.dropPendingQueueForPeer config p reason).2) := by
  unfold dropPendingQueueForPeer
  rw [failedIds_map]
  exact loses_recompute (.take q p)

lemma abortPendingSessionForPeer_loses : Loses q (q.abortPendingSessionForPeer config p reason).1
      (pickIds failedId (q.abortPendingSessionForPeer config p reason).2) := by
  have h := dropPendingQueueForPeer_loses config q p reason.welcomeFailureReason
  unfold abortPendingSessionForPeer
  rw [pickIds_append]
  exact (add_zero (pickIds failedId _)).symm ▸ h

lemma changeWelcome_loses (q : PreSessionQueue) (change) :
    Loses q (q.changeWelcome config p change).1
      (pickIds failedId (q.changeWelcome config p change).2) := by
  cases change with
  | renewed => exact ⟨add_zero _, fun _ => .refl _, rfl, rfl⟩
  | expired reason =>
    have h := abortPendingSessionForPeer_loses config
      { q with terminalWelcomes := p :: q.terminalWelcomes } p reason
    exact ⟨h.ids, h.shrinks, h.seen, h.minted⟩

lemma establish_loses (q : PreSessionQueue) (changes) : Loses q (q.establish config p changes).1
      (pickIds failedId (q.establish config p changes).2) := by
  induction changes generalizing q with
  | nil => exact .refl q
  | cons change changes ih =>
    have h := (changeWelcome_loses config p q change).trans (ih (q.changeWelcome config p change).1)
    simpa only [establish, pickIds_append] using h

def OnlyFailures (events : List PreSessionEvent) : Prop :=
  ∀ e ∈ events, mintedId e = none ∧ ∀ id, e ≠ .dispatched id

lemma OnlyFailures.append (h₁ : OnlyFailures l1)
    (h₂ : OnlyFailures l2) : OnlyFailures (l1 ++ l2) :=
  forall_mem_append.2 ⟨h₁, h₂⟩

lemma OnlyFailures.mints (h : OnlyFailures events) : pickIds mintedId events = 0 := by
  have hnil : events.filterMap mintedId = [] :=
    filterMap_eq_nil_iff.2 fun e he => (h e he).1
  rw [pickIds, hnil]
  rfl

lemma OnlyFailures.dispatches (h : OnlyFailures events)
    {id} : .dispatched id ∉ events := fun hmem => (h _ hmem).2 id rfl

lemma onlyFailures_map (reason) : OnlyFailures (ms.map fun m => .failed m.messageId reason) := by
  intro e he
  obtain ⟨m, -, rfl⟩ := mem_map.1 he
  exact ⟨rfl, nofun⟩

lemma abort_onlyFailures : OnlyFailures (q.abortPendingSessionForPeer config p reason).2 := by
  apply (onlyFailures_map (q.queueFor p) reason.welcomeFailureReason).append
  exact forall_mem_singleton.2 ⟨rfl, nofun⟩

lemma establish_onlyFailures (q : PreSessionQueue)
    (changes) : OnlyFailures (q.establish config p changes).2 := by
  induction changes generalizing q with
  | nil => exact nofun
  | cons change changes ih =>
    have hfirst : OnlyFailures (q.changeWelcome config p change).2 := by
      cases change with
      | renewed => exact nofun
      | expired reason => exact abort_onlyFailures config _ p reason
    exact hfirst.append (ih _)

structure Takes (q q' : PreSessionQueue) (p : PeerId) (m : PendingMessage)
    (failed : Multiset MessageId) : Prop where
  ids : q'.queuedIds + failed = q.queuedIds + {m.messageId}
  own : (q'.queueFor p).Sublist (q.queueFor p ++ [m])
  others : ∀ p', p' ≠ p → (q'.queueFor p').Sublist (q.queueFor p')
  seen : q'.seen = q.seen
  minted : q'.minted = q.minted

@[simp] lemma notePendingMessageExpiry_queueFor (p) :
    (q.notePendingMessageExpiry config at_).queueFor p = q.queueFor p := by
  unfold notePendingMessageExpiry
  split <;> rfl

@[simp] lemma notePendingMessageExpiry_queuedIds :
    (q.notePendingMessageExpiry config at_).queuedIds = q.queuedIds := by
  unfold notePendingMessageExpiry
  split <;> rfl

lemma notePendingMessageExpiry_keeps : (q.notePendingMessageExpiry config at_).seen = q.seen ∧
      (q.notePendingMessageExpiry config at_).minted = q.minted ∧
      (q.notePendingMessageExpiry config at_).terminalWelcomes = q.terminalWelcomes := by
  unfold notePendingMessageExpiry
  split <;> exact ⟨rfl, rfl, rfl⟩

lemma evictWhile_terminalWelcomes
    (hnext : ∀ q m q', next q = some (m, q') → q'.terminalWelcomes = q.terminalWelcomes) (fuel)
    (q : PreSessionQueue) :
    (evictWhile next tooFull fuel q).2.terminalWelcomes = q.terminalWelcomes := by
  induction fuel generalizing q with
  | zero => rfl
  | succ fuel ih =>
    unfold evictWhile
    by_cases hover : tooFull q
    · rw [if_pos hover]
      cases hn : next q with
      | none => rfl
      | some evicted => exact (ih evicted.2).trans (hnext q _ _ hn)
    · rw [if_neg hover]

lemma evictPendingMessageAt_terminalWelcomes {q q' : PreSessionQueue} {p}
    {m} (h : q.evictPendingMessageAt p i = some (m, q')) :
    q'.terminalWelcomes = q.terminalWelcomes := by
  unfold evictPendingMessageAt at h
  split at h
  · cases h
  obtain ⟨-, rfl⟩ := Prod.mk.injEq .. ▸ Option.some.inj h
  rfl

lemma makeRoom_terminalWelcomes :
    (q.makeRoom p incoming).2.terminalWelcomes = q.terminalWelcomes := by
  have own : ∀ q m q', evictPendingMessageAt q p 0 = some (m, q') →
      q'.terminalWelcomes = q.terminalWelcomes := fun _ _ _ => evictPendingMessageAt_terminalWelcomes
  have oldest : ∀ q m q', evictOldestPendingMessage q = some (m, q') →
      q'.terminalWelcomes = q.terminalWelcomes := by
    intro q m q' h
    unfold evictOldestPendingMessage at h
    split at h
    · cases h
    · exact evictPendingMessageAt_terminalWelcomes h
  unfold makeRoom
  rw [evictWhile_terminalWelcomes oldest, evictWhile_terminalWelcomes oldest,
    evictWhile_terminalWelcomes own, evictWhile_terminalWelcomes own]

end

lemma queuePendingMessageAt_takes : Takes q (q.queuePendingMessageAt config p m).1 p m
      (pickIds failedId (q.queuePendingMessageAt config p m).2) := by
  have hroom := makeRoom_loses q p m.serializedBytes
  have hkeeps := notePendingMessageExpiry_keeps config
  unfold queuePendingMessageAt
  set room := q.makeRoom p m.serializedBytes with hr
  have hqueue (p') : queueFor { room.2 with
      pendingEncryptedMessages := room.2.pendingEncryptedMessages.insert p
        (room.2.queueFor p ++ [m]) } p' =
      if p' = p then room.2.queueFor p ++ [m] else room.2.queueFor p' := by
    simp only [queueFor, get_insert]
    by_cases hp : p' = p
    · simp [hp]
    · simp [hp]
  constructor
  · rw [failedIds_map, notePendingMessageExpiry_queuedIds]
    have h := queuedIds_insert room.2 p (room.2.queueFor p ++ [m])
    rw [idsOf_append, add_comm (idsOf (room.2.queueFor p)), ← add_assoc] at h
    have hpush := add_right_cancel h
    calc _ = room.2.queuedIds + idsOf [m] + idsOf room.1 := by rw [← hpush]; rfl
      _ = room.2.queuedIds + idsOf room.1 + {m.messageId} := by
        rw [idsOf_cons, idsOf_nil]
        abel
      _ = q.queuedIds + {m.messageId} := by rw [hroom.ids]
  · rw [notePendingMessageExpiry_queueFor, hqueue, if_pos rfl]
    exact (hroom.shrinks p).append (.refl _)
  · intro p' hp
    rw [notePendingMessageExpiry_queueFor, hqueue, if_neg hp]
    exact hroom.shrinks p'
  · exact (hkeeps _ _).1.trans hroom.seen
  · exact (hkeeps _ _).2.1.trans hroom.minted

lemma queuePendingMessageAt_terminal (p p' m) :
    (q.queuePendingMessageAt config p m).1.hasTerminalWelcomeFailure p' =
      q.hasTerminalWelcomeFailure p' := by
  unfold hasTerminalWelcomeFailure queuePendingMessageAt
  rw [(notePendingMessageExpiry_keeps config _ _).2.2, makeRoom_terminalWelcomes]

lemma abort_queueFor : (q.abortPendingSessionForPeer config p reason).1.queueFor p = [] := by
  have h := queueFor_setQueue q p p []
  rw [if_pos rfl] at h
  exact h

/-- Queueing behind the session: the message joins the queue, or the whole queue is
reported and gone. -/
lemma queueMessage_takes :
    let r := q.queueMessageForSessionEstablishment config p m
    Takes q r.1 p m (pickIds failedId r.2.1) ∧ r.2.2 = !q.hasTerminalWelcomeFailure p ∧
      (q.hasTerminalWelcomeFailure p → r.1.queueFor p = []) ∧
      r.1.hasTerminalWelcomeFailure p = q.hasTerminalWelcomeFailure p := by
  have hq := queuePendingMessageAt_takes config q p m
  have ht := queuePendingMessageAt_terminal config q p p m
  unfold queueMessageForSessionEstablishment
  by_cases hfail : q.hasTerminalWelcomeFailure p
  · have hl := abortPendingSessionForPeer_loses config (q.queuePendingMessageAt config p m).1 p
      .retryExhausted
    simp only [ht, hfail, if_true]
    refine ⟨?_, rfl, fun _ => abort_queueFor config _ p _, ht.trans hfail⟩
    constructor
    · rw [pickIds_append, ← hq.ids, ← hl.ids]
      abel
    · exact (hl.shrinks p).trans hq.own
    · intro p' hp
      exact (hl.shrinks p').trans (hq.others p' hp)
    · exact hl.seen.trans hq.seen
    · exact hl.minted.trans hq.minted
  · simp only [ht, hfail]
    exact ⟨hq, rfl, fun h => absurd h Bool.false_ne_true, ht.trans (Bool.eq_false_iff.2 hfail)⟩

lemma queueMessage_onlyFailures :
    OnlyFailures (q.queueMessageForSessionEstablishment config p m).2.1 := by
  have hroom := onlyFailures_map (q.makeRoom p m.serializedBytes).1
    "Pending session queue capacity exceeded"
  simp only [queueMessageForSessionEstablishment]
  split
  · exact hroom.append (abort_onlyFailures config _ p _)
  · exact hroom

def standingAfter (failed : Bool) : List WelcomeChange → Bool
  | [] => failed
  | .renewed :: changes => standingAfter false changes
  | .expired _ :: changes => standingAfter true changes

lemma establish_terminal {q : PreSessionQueue} :
    (q.establish config p changes).1.hasTerminalWelcomeFailure p =
      standingAfter (q.hasTerminalWelcomeFailure p) changes := by
  induction changes generalizing q with
  | nil => rfl
  | cons change changes ih =>
    simp only [establish, ih]
    cases change with
    | renewed =>
      have h : (q.changeWelcome config p .renewed).1.hasTerminalWelcomeFailure p = false := by
        simp [changeWelcome, hasTerminalWelcomeFailure]
      rw [h, standingAfter]
    | expired reason =>
      have h : (q.changeWelcome config p (.expired reason)).1.hasTerminalWelcomeFailure p = true := by
        simp [changeWelcome, hasTerminalWelcomeFailure, abortPendingSessionForPeer,
          dropPendingQueueForPeer, recomputeNextPendingMessageExpiry, setQueue]
      rw [h, standingAfter]

def reaches (q : PreSessionQueue) (m : PendingMessage)
    (a : FlushAnswer) : Bool :=
  !lifetimeExpired now m.queuedAt config.pendingMessageMaxLifetimeMs && !q.isDuplicate config m a

def keepsBack (q : PreSessionQueue) (m : PendingMessage)
    (a : FlushAnswer) : Bool :=
  lifetimeExpired now m.queuedAt config.pendingMessageMaxLifetimeMs ||
    (reaches config now q m a &&
      (a.preparation = .error || (a.preparation = .ready && !(a.created && a.dispatched))))

def standingAt (q : PreSessionQueue) (failed : Bool)
    (m : PendingMessage) (a : FlushAnswer) : Bool :=
  if reaches config now q m a then standingAfter failed a.establishment else failed

def refused (q : PreSessionQueue) (failed : Bool)
    (m : PendingMessage) (a : FlushAnswer) : Bool :=
  reaches config now q m a && a.preparation = .notReady && standingAt config now q failed m a

/-- What flushing one message does. It leaves the flush queued again, dispatched,
reported, or kept back; a message kept back because its session failed was reported
with the queue it had just rejoined. -/
structure Flushed (config : PreSessionConfig) (p : PeerId) (now : ℕ) (q : PreSessionQueue)
    (m : PendingMessage) (a : FlushAnswer) (r : PreSessionQueue × List PreSessionEvent × Bool) :
    Prop where
  accounts : ∃ kept left : Multiset MessageId,
    r.1.queuedIds + pickIds failedId r.2.1 + left + kept = q.queuedIds + {m.messageId} ∧
      (∀ id ∈ left, id ∈ r.1.seen) ∧
      (refused config now q (q.hasTerminalWelcomeFailure p) m a = false →
        kept = if r.2.2 then {m.messageId} else 0) ∧
      (keepsBack config now q m a = false → kept = 0)
  standing : r.1.hasTerminalWelcomeFailure p =
    standingAt config now q (q.hasTerminalWelcomeFailure p) m a
  seen : ∀ id, id ∈ r.1.seen ↔ id ∈ q.seen ∨ .dispatched id ∈ r.2.1
  own_id : ∀ id, .dispatched id ∈ r.2.1 → id = m.messageId
  minted : r.1.minted = q.minted
  mints : pickIds mintedId r.2.1 = 0
  own : (r.1.queueFor p).Sublist (q.queueFor p ++ [m])
  room : idsOf (r.1.queueFor p) + (if r.2.2 then {m.messageId} else 0) ≤
    idsOf (q.queueFor p) + {m.messageId}
  others : ∀ p', p' ≠ p → (r.1.queueFor p').Sublist (q.queueFor p')

lemma idsOf_le {ms ns} (h : ms.Sublist ns) : idsOf ms ≤ idsOf ns :=
  coe_le.2 (h.map _).subperm

section
variable {config : PreSessionConfig} {p : PeerId} {now : ℕ} {q : PreSessionQueue}
  {m : PendingMessage}

lemma flushed_untouched (hreach : reaches config now q m a = false)
    (hkeep : keepsBack config now q m a = true) : Flushed config p now q m a (q, [], true) where
  accounts := by
    refine ⟨{m.messageId}, 0, by simp, by simp, fun _ => rfl, fun h => ?_⟩
    rw [hkeep] at h
    cases h
  standing := by simp [standingAt, hreach]
  seen id := by simp
  own_id id h := nomatch h
  minted := rfl
  mints := rfl
  own := sublist_append_left _ _
  room := by simp
  others p' _ := .refl _

lemma flushed_duplicate (hreach : reaches config now q m a = false) (hquiet : OnlyFailures events)
    (hfailed : pickIds failedId events = failed) (hsum : failed + left = {m.messageId})
    (hleft : ∀ id ∈ left, id ∈ q.seen) : Flushed config p now q m a (q, events, false) where
  accounts := by
    refine ⟨0, left, ?_, hleft, fun _ => rfl, fun _ => rfl⟩
    simp only [hfailed]
    rw [add_zero, add_assoc, hsum]
  standing := by simp [standingAt, hreach]
  seen id := by simp [hquiet.dispatches]
  own_id id h := absurd h hquiet.dispatches
  minted := rfl
  mints := hquiet.mints
  own := sublist_append_left _ _
  room := by simp
  others p' _ := .refl _

section
variable (hreach : reaches config now q m a = true)
include hreach

lemma flushed_kept (hkeep : keepsBack config now q m a = true) :
    Flushed config p now q m a ((q.establish config p a.establishment).1,
      (q.establish config p a.establishment).2, true) where
  accounts := by
    have h := establish_loses config p q a.establishment
    refine ⟨{m.messageId}, 0, ?_, by simp, fun _ => rfl, fun h => ?_⟩
    · simp only [add_zero, h.ids]
    rw [hkeep] at h
    cases h
  standing := by simp only [standingAt, hreach, if_true, establish_terminal]
  seen id := by
    have hquiet := establish_onlyFailures config p q a.establishment
    simp [(establish_loses config p q a.establishment).seen, hquiet.dispatches]
  own_id id h := absurd h ((establish_onlyFailures config p q a.establishment).dispatches)
  minted := (establish_loses config p q a.establishment).minted
  mints := (establish_onlyFailures config p q a.establishment).mints
  own := ((establish_loses config p q a.establishment).shrinks p).trans
    (sublist_append_left _ _)
  room := by
    have hle := idsOf_le ((establish_loses config p q a.establishment).shrinks p)
    simpa using hle
  others p' _ := (establish_loses config p q a.establishment).shrinks p'

lemma flushed_requeued (hprep : a.preparation = .notReady) :
    let kicked := q.establish config p a.establishment
    let queued := kicked.1.queueMessageForSessionEstablishment config p m
    Flushed config p now q m a (queued.1, kicked.2 ++ queued.2.1, !queued.2.2) := by
  intro kicked queued
  have hk : Loses q kicked.1 _ := establish_loses config p q a.establishment
  have hkq : OnlyFailures kicked.2 := establish_onlyFailures config p q a.establishment
  obtain ⟨ht, hok, hempty, hterm⟩ := queueMessage_takes config kicked.1 p m
  have hquiet : OnlyFailures (kicked.2 ++ queued.2.1) :=
    hkq.append (queueMessage_onlyFailures config kicked.1 p m)
  have hst : kicked.1.hasTerminalWelcomeFailure p =
      standingAfter (q.hasTerminalWelcomeFailure p) a.establishment :=
    establish_terminal config p
  have hsum : queued.1.queuedIds + pickIds failedId (kicked.2 ++ queued.2.1) =
      q.queuedIds + {m.messageId} := by
    rw [pickIds_append, ← hk.ids]
    calc _ = (queued.1.queuedIds + pickIds failedId queued.2.1) + pickIds failedId kicked.2 := by
          abel
      _ = _ := by
          rw [ht.ids]
          abel
  have hback : (!queued.2.2) = kicked.1.hasTerminalWelcomeFailure p := by
    rw [show queued.2.2 = _ from hok, Bool.not_not]
  constructor
  · refine ⟨0, 0, by simpa using hsum, by simp, fun hnot => ?_, fun _ => rfl⟩
    have hfalse : (!queued.2.2) = false := by
      rw [hback, hst]
      simpa [refused, hreach, hprep, standingAt] using hnot
    simp only [hfalse, Bool.false_eq_true, if_false]
  · simp only [standingAt, hreach, if_true]
    exact hterm.trans hst
  · intro id
    have hs : queued.1.seen = q.seen := ht.seen.trans hk.seen
    simp [hs, hquiet.dispatches]
  · exact fun id h => absurd h hquiet.dispatches
  · exact ht.minted.trans hk.minted
  · exact hquiet.mints
  · exact ht.own.trans ((hk.shrinks p).append (.refl _))
  · -- Refused, the recipient's queue is gone as a whole, so only the message counts.
    by_cases hfail : kicked.1.hasTerminalWelcomeFailure p
    · have hnil : queued.1.queueFor p = [] := hempty hfail
      simp only [hback, hfail, if_true, hnil, idsOf_nil, zero_add]
      exact le_add_of_nonneg_left (zero_le _)
    have hle := idsOf_le (ht.own.trans ((hk.shrinks p).append (.refl [m])))
    simp only [hback, hfail, Bool.false_eq_true, if_false, add_zero]
    simpa using hle
  · exact fun p' hp => (ht.others p' hp).trans (hk.shrinks p')

lemma flushed_dispatched (hprep : a.preparation = .ready) (hcreated : a.created = true) :
    let kicked := q.establish config p a.establishment
    Flushed config p now q m a ({ kicked.1 with seen := m.messageId :: kicked.1.seen },
      kicked.2 ++ [.dispatched m.messageId], !a.dispatched) := by
  intro kicked
  have hk : Loses q kicked.1 _ := establish_loses config p q a.establishment
  have hkq : OnlyFailures kicked.2 := establish_onlyFailures config p q a.establishment
  have hids : queuedIds { kicked.1 with seen := m.messageId :: kicked.1.seen } =
    kicked.1.queuedIds := rfl
  have hfailed : pickIds failedId (kicked.2 ++ [.dispatched m.messageId]) =
      pickIds failedId kicked.2 := by
    rw [pickIds_append]
    exact add_zero _
  constructor
  · by_cases hd : a.dispatched
    · refine ⟨0, {m.messageId}, ?_, ?_, fun _ => by simp [hd], fun _ => rfl⟩
      · rw [hids, hfailed, hk.ids, add_zero]
      intro id hid
      rw [Multiset.mem_singleton.1 hid]
      exact .head _
    · refine ⟨{m.messageId}, 0, ?_, by simp, fun _ => by simp [hd], fun hkeep => ?_⟩
      · rw [hids, hfailed, hk.ids, add_zero]
      · simp [keepsBack, hreach, hprep, hcreated, hd] at hkeep
  · simp only [standingAt, hreach, if_true]
    exact establish_terminal config p
  · intro id
    have hs : kicked.1.seen = q.seen := hk.seen
    simp [hs, hkq.dispatches, or_comm]
  · intro id h
    rcases mem_append.1 h with h | h
    · exact absurd h hkq.dispatches
    · exact PreSessionEvent.dispatched.inj (List.mem_singleton.1 h)
  · exact hk.minted
  · rw [pickIds_append, hkq.mints]
    rfl
  · exact (hk.shrinks p).trans (List.sublist_append_left _ _)
  · have hle : idsOf (kicked.1.queueFor p) ≤ idsOf (q.queueFor p) := idsOf_le (hk.shrinks p)
    have hone : (if (!a.dispatched) = true then ({m.messageId} : Multiset MessageId) else 0) ≤
        {m.messageId} := by
      split
      · exact le_rfl
      · exact zero_le _
    exact add_le_add hle hone
  · exact fun p' _ => hk.shrinks p'

end

lemma flushMessage_flushed : Flushed config p now q m a (q.flushMessage config p now m a) := by
  unfold flushMessage
  by_cases hexp : lifetimeExpired now m.queuedAt config.pendingMessageMaxLifetimeMs
  · rw [if_pos hexp]
    exact flushed_untouched (by simp [reaches, hexp]) (by simp [keepsBack, hexp])
  rw [if_neg hexp]
  by_cases hdup : q.isDuplicate config m a
  · rw [if_pos hdup]
    have hreach : reaches config now q m a = false := by simp [reaches, hdup]
    by_cases hexact : config.exactDedup
    · rw [if_pos hexact]
      have hseen : m.messageId ∈ q.seen := by
        simp only [isDuplicate, hexact, Bool.not_true, Bool.false_or, Bool.and_eq_true,
          decide_eq_true_eq] at hdup
        exact hdup.2
      exact flushed_duplicate hreach nofun rfl (zero_add _) (by simpa using hseen)
    · rw [if_neg hexact]
      apply flushed_duplicate hreach _ rfl (add_zero _) (by simp)
      exact forall_mem_singleton.2 ⟨rfl, nofun⟩
  rw [if_neg hdup]
  have hreach : reaches config now q m a = true := by simp [reaches, hexp, hdup]
  cases hprep : a.preparation with
  | error =>
    exact flushed_kept hreach (by simp [keepsBack, hreach, hprep])
  | notReady => exact flushed_requeued hreach hprep
  | ready =>
    by_cases hcreated : a.created
    · simp only [if_pos hcreated]
      exact flushed_dispatched hreach hprep hcreated
    simp only [if_neg hcreated]
    exact flushed_kept hreach (by simp [keepsBack, hreach, hprep, hcreated])

end

variable (config : PreSessionConfig) (q : PreSessionQueue) (p : PeerId) (order : List MessageId)
  (remaining : List PendingMessage)

def flushStanding (config : PreSessionConfig) (now : ℕ) (q : PreSessionQueue)
    (answers : MessageId → FlushAnswer) : Bool → List PendingMessage → Bool
  | failed, [] => failed
  | failed, m :: ms =>
    flushStanding config now q answers (standingAt config now q failed m (answers m.messageId)) ms

def flushRefused (config : PreSessionConfig) (now : ℕ) (q : PreSessionQueue)
    (answers : MessageId → FlushAnswer) : Bool → List PendingMessage → Bool
  | _, [] => false
  | failed, m :: ms =>
    refused config now q failed m (answers m.messageId) ||
      flushRefused config now q answers (standingAt config now q failed m (answers m.messageId)) ms

def flushKeepsBack (now : ℕ) (q : PreSessionQueue)
    (answers : MessageId → FlushAnswer) (ms : List PendingMessage) : Bool :=
  ms.any fun m => keepsBack config now q m (answers m.messageId)

section
variable {now : ℕ} {p : PeerId} {config : PreSessionConfig}

/-- What a message meets depends on the ids seen only through its own. -/
lemma reaches_congr {q q₀ m} (h : m.messageId ∈ q.seen ↔ m.messageId ∈ q₀.seen) (now a) :
    reaches config now q m a = reaches config now q₀ m a := by
  simp only [reaches, isDuplicate, h]

structure FlushedAll (config : PreSessionConfig) (p : PeerId) (now : ℕ)
    (answers : MessageId → FlushAnswer) (q₀ q : PreSessionQueue) (ms : List PendingMessage)
    (r : PreSessionQueue × List PreSessionEvent × List PendingMessage) : Prop where
  accounts : ∃ kept left : Multiset MessageId,
    r.1.queuedIds + pickIds failedId r.2.1 + left + kept = q.queuedIds + idsOf ms ∧
      (∀ id ∈ left, id ∈ r.1.seen) ∧
      (flushRefused config now q₀ answers (q.hasTerminalWelcomeFailure p) ms = false →
        kept = idsOf r.2.2) ∧
      (flushKeepsBack config now q₀ answers ms = false → kept = 0)
  standing : r.1.hasTerminalWelcomeFailure p =
    flushStanding config now q₀ answers (q.hasTerminalWelcomeFailure p) ms
  seen : ∀ id, id ∈ r.1.seen ↔ id ∈ q.seen ∨ .dispatched id ∈ r.2.1
  minted : r.1.minted = q.minted
  mints : pickIds mintedId r.2.1 = 0
  own : (r.1.queueFor p).Sublist (q.queueFor p ++ ms)
  room : idsOf (r.1.queueFor p) + idsOf r.2.2 ≤ idsOf (q.queueFor p) + idsOf ms
  others : ∀ p', p' ≠ p → (r.1.queueFor p').Sublist (q.queueFor p')

lemma FlushedAll.cons {q₀ q} {m : PendingMessage} {ms}
    (hm : m.messageId ∈ q.seen ↔ m.messageId ∈ q₀.seen)
    (h : Flushed config p now q m (answers m.messageId) one)
    (hs : FlushedAll config p now answers q₀ one.1 ms rest) :
    FlushedAll config p now answers q₀ q (m :: ms)
      (rest.1, one.2.1 ++ rest.2.1, if one.2.2 then m :: rest.2.2 else rest.2.2) := by
  have hreach : reaches config now q m _ = reaches config now q₀ m _ :=
    reaches_congr hm now (answers m.messageId)
  have hstand : standingAt config now q (q.hasTerminalWelcomeFailure p) m (answers m.messageId) =
      standingAt config now q₀ (q.hasTerminalWelcomeFailure p) m (answers m.messageId) := by
    simp only [standingAt, hreach]
  have hone : (if one.2.2 then ({m.messageId} : Multiset MessageId) else 0) + idsOf rest.2.2 =
      idsOf (if one.2.2 then m :: rest.2.2 else rest.2.2) := by
    split
    · rw [idsOf_cons]
    · rw [zero_add]
  obtain ⟨kept, left, hsum, hleft, href, hkept⟩ := h.accounts
  obtain ⟨kept', left', hsum', hleft', href', hkept'⟩ := hs.accounts
  constructor
  · refine ⟨kept + kept', left + left', ?_, ?_, ?_, ?_⟩
    · rw [pickIds_append, idsOf_cons]
      calc _ = (rest.1.queuedIds + pickIds failedId rest.2.1 + left' + kept') +
            (pickIds failedId one.2.1 + left + kept) := by abel
        _ = (one.1.queuedIds + pickIds failedId one.2.1 + left + kept) + idsOf ms := by
            rw [hsum']
            abel
        _ = q.queuedIds + ({m.messageId} + idsOf ms) := by rw [hsum, add_assoc]
    · intro id hid
      rcases mem_add.1 hid with hid | hid
      · exact (hs.seen id).2 (.inl (hleft id hid))
      · exact hleft' id hid
    · intro hnone
      simp only [flushRefused, Bool.or_eq_false_iff] at hnone
      have hfirst := href (by
        simpa only [refused, hreach, hstand] using hnone.1)
      have hsec := href' (by rw [h.standing, hstand]; exact hnone.2)
      rw [hfirst, hsec, hone]
    · intro hnone
      simp only [flushKeepsBack, any_cons, Bool.or_eq_false_iff] at hnone
      have hfirst := hkept (by simpa only [keepsBack, hreach] using hnone.1)
      rw [hfirst, hkept' hnone.2, add_zero]
  · rw [hs.standing, h.standing, hstand, flushStanding]
  · intro id
    simp only [hs.seen, h.seen, mem_append, or_assoc]
  · exact hs.minted.trans h.minted
  · rw [pickIds_append, h.mints, hs.mints, add_zero]
  · have happ := hs.own.trans (h.own.append (.refl ms))
    simpa using happ
  · rw [← hone, idsOf_cons]
    calc _ = (idsOf (rest.1.queueFor p) + idsOf rest.2.2) +
          (if one.2.2 then ({m.messageId} : Multiset MessageId) else 0) := by abel
      _ ≤ (idsOf (one.1.queueFor p) + idsOf ms) + if one.2.2 then {m.messageId} else 0 :=
          add_le_add_left hs.room _
      _ = (idsOf (one.1.queueFor p) + if one.2.2 then {m.messageId} else 0) + idsOf ms := by abel
      _ ≤ (idsOf (q.queueFor p) + {m.messageId}) + idsOf ms := add_le_add_left h.room _
      _ = _ := add_assoc _ _ _
  · exact fun p' hp => (hs.others p' hp).trans (h.others p' hp)

lemma flushMessages_flushed (q) (ms : List PendingMessage) (hnodup : (ms.map (·.messageId)).Nodup)
    (hseen : ∀ m ∈ ms, m.messageId ∈ q.seen ↔ m.messageId ∈ q₀.seen) :
    FlushedAll config p now answers q₀ q ms (q.flushMessages config p now answers ms) := by
  induction ms generalizing q with
  | nil =>
    constructor
    · exact ⟨0, 0, by simp [flushMessages], by simp, fun _ => rfl, fun _ => rfl⟩
    · rfl
    · intro id
      simp [flushMessages]
    · rfl
    · rfl
    · exact sublist_append_left _ _
    · exact le_rfl
    · exact fun _ _ => .refl _
  | cons m ms ih =>
    have hone : Flushed config p now q m (answers m.messageId)
      (q.flushMessage config p now m (answers m.messageId)) := flushMessage_flushed
    obtain ⟨hm, hms⟩ := nodup_cons.1 hnodup
    apply FlushedAll.cons (hseen m (.head _)) hone
    apply ih _ hms
    -- Flushing `m` marks no id but its own.
    intro m' hm'
    rw [hone.seen, ← hseen m' (.tail _ hm')]
    constructor
    · rintro (h | h)
      · exact h
      have hmem : m'.messageId ∈ ms.map (·.messageId) := mem_map_of_mem hm'
      rw [hone.own_id _ h] at hmem
      exact absurd hmem hm
    · exact .inl

end

lemma sublist_of_positions {α : Type*} [DecidableEq α] {order l : List α} (hnodup : order.Nodup)
    (hle : (l : Multiset α) ≤ (order : Multiset α))
    (hsort : l.Pairwise fun a b => order.idxOf a ≤ order.idxOf b) : l.Sublist order := by
  have hl : l.Nodup := coe_nodup.1 (nodup_of_le hle (coe_nodup.2 hnodup))
  have hsub : ∀ a ∈ l, a ∈ order := fun a ha => mem_of_le hle ha
  have horder : order.Pairwise fun a b => order.idxOf a ≤ order.idxOf b := by
    rw [pairwise_iff_getElem]
    intro i j hi hj hij
    rw [hnodup.idxOf_getElem, hnodup.idxOf_getElem]
    omega
  -- The members of `l`, picked out of `order`, are `l`: both are sorted by position.
  have heq : l = order.filter (· ∈ l) := by
    apply List.Perm.eq_of_pairwise _ hsort (horder.sublist filter_sublist)
    · rw [perm_ext_iff_of_nodup hl (hnodup.filter _)]
      intro a
      simp only [mem_filter, decide_eq_true_eq]
      exact ⟨fun ha => ⟨hsub a ha, ha⟩, And.right⟩
    · intro a b ha hb hab hba
      exact (idxOf_inj (hsub a ha)).1 (le_antisymm hab hba)
  rw [heq]
  exact filter_sublist

lemma foldl_notePendingMessageExpiry (config) (ms : List PendingMessage) (q : PreSessionQueue) :
    let r := ms.foldl (fun q m => q.notePendingMessageExpiry config m.queuedAt) q
    r.pendingEncryptedMessages = q.pendingEncryptedMessages ∧ r.seen = q.seen ∧
      r.minted = q.minted := by
  induction ms generalizing q with
  | nil => exact ⟨rfl, rfl, rfl⟩
  | cons m ms ih =>
    obtain ⟨h1, h2, h3⟩ := ih (q.notePendingMessageExpiry config m.queuedAt)
    obtain ⟨hs, hm, -⟩ := notePendingMessageExpiry_keeps config q m.queuedAt
    refine ⟨h1.trans ?_, h2.trans hs, h3.trans hm⟩
    unfold notePendingMessageExpiry
    split <;> rfl

def merged : List PendingMessage :=
  (q.queueFor p ++ remaining).insertionSort
    fun a b => order.idxOf a.messageId ≤ order.idxOf b.messageId

lemma idsOf_merged :
    idsOf (q.merged p order remaining) = idsOf (q.queueFor p) + idsOf remaining := by
  rw [← idsOf_append]
  exact coe_eq_coe.2 ((perm_insertionSort _ _).map _)

lemma merged_sublist {q : PreSessionQueue} {p : PeerId} {order : List MessageId}
    {remaining : List PendingMessage} (hnodup : order.Nodup)
    (hle : idsOf (q.queueFor p) + idsOf remaining ≤ (order : Multiset MessageId)) :
    ((q.merged p order remaining).map (·.messageId)).Sublist order := by
  apply sublist_of_positions hnodup
  · exact (idsOf_merged q p order remaining).trans_le hle
  rw [pairwise_map]
  have htotal : Std.Total fun a b : PendingMessage =>
      order.idxOf a.messageId ≤ order.idxOf b.messageId := ⟨fun a b => le_total _ _⟩
  have htrans : IsTrans PendingMessage fun a b =>
      order.idxOf a.messageId ≤ order.idxOf b.messageId := ⟨fun a b c => le_trans⟩
  exact pairwise_insertionSort _ _

lemma restoreRemaining_spec (config p order) (q : PreSessionQueue) (remaining) :
    let r := restoreRemaining config p order q remaining
    r.queuedIds = q.queuedIds + idsOf remaining ∧ r.seen = q.seen ∧ r.minted = q.minted ∧
      ∀ p', r.queueFor p' = if p' = p then q.merged p order remaining else q.queueFor p' := by
  intro r
  obtain ⟨hp, hs, hm⟩ := foldl_notePendingMessageExpiry config remaining
    { q with pendingEncryptedMessages :=
        q.pendingEncryptedMessages.insert p (q.merged p order remaining) }
  refine ⟨?_, hs, hm, fun p' => ?_⟩
  · have h := queuedIds_insert q p (q.merged p order remaining)
    rw [idsOf_merged, add_comm (idsOf (q.queueFor p)), ← add_assoc] at h
    have hcancelled := add_right_cancel h
    rw [← hcancelled]
    exact congrArg (tally · idsOf) hp
  · have hget : r.queueFor p' =
        (get (q.pendingEncryptedMessages.insert p (q.merged p order remaining)) p').getD [] :=
      congrArg (fun t => (get t p').getD []) hp
    rw [hget, get_insert]
    by_cases h : p' = p
    · simp [h]
    · simp [h, queueFor]

lemma idsOf_queueFor_le : idsOf (q.queueFor p) ≤ q.queuedIds := by
  have h := queuedIds_setQueue q p []
  rw [idsOf_nil, add_zero] at h
  rw [← h]
  exact le_add_left _ _

lemma flushed_taken {q} (p now) (answers) (hnodup : q.queuedIds.Nodup) :
    FlushedAll config p now answers q (q.setQueue p []) (q.queueFor p)
      ((q.setQueue p []).flushMessages config p now answers (q.queueFor p)) := by
  apply flushMessages_flushed
  · exact coe_nodup.1 (nodup_of_le (idsOf_queueFor_le q p) hnodup)
  · exact fun m _ => .rfl

lemma flush_keeps_order {q : PreSessionQueue} (p now)
    (answers) (hnodup : q.queuedIds.Nodup) (p') :
    (((q.flushPendingMessages config p now answers).1.queueFor p').map (·.messageId)).Sublist
      ((q.queueFor p').map (·.messageId)) := by
  have htaken := Loses.take q p
  have hf := flushed_taken config p now answers hnodup
  have hempty : (q.setQueue p []).queueFor p = [] := by rw [queueFor_setQueue, if_pos rfl]
  have horder : ((q.queueFor p).map (·.messageId)).Nodup :=
    coe_nodup.1 (nodup_of_le (idsOf_queueFor_le q p) hnodup)
  unfold flushPendingMessages
  set flushed := (q.setQueue p []).flushMessages config p now answers (q.queueFor p)
  -- What the flush leaves in the map is in order before the kept messages rejoin it.
  have hin : (flushed.1.queueFor p').Sublist (q.queueFor p') := by
    by_cases hp : p' = p
    · have h := hf.own
      rw [hempty, nil_append] at h
      rw [hp]
      exact h
    · have h := hf.others p' hp
      rw [queueFor_setQueue, if_neg hp] at h
      exact h
  by_cases hblock : p ∈ q.blockedUsers
  · rw [if_pos hblock]
    exact (htaken.shrinks p').map _
  rw [if_neg hblock]
  by_cases hrem : flushed.2.2.isEmpty
  · rw [if_pos hrem]
    exact hin.map _
  rw [if_neg hrem]
  by_cases hfail : flushed.1.hasTerminalWelcomeFailure p
  · rw [if_pos hfail]
    exact hin.map _
  rw [if_neg hfail]
  obtain ⟨-, -, -, hqueue⟩ := restoreRemaining_spec config p ((q.queueFor p).map (·.messageId))
    flushed.1 flushed.2.2
  rw [hqueue]
  by_cases hp : p' = p
  · rw [if_pos hp, hp]
    apply merged_sublist horder
    have h := hf.room
    rw [hempty, idsOf_nil, zero_add] at h
    exact h
  · rw [if_neg hp]
    exact hin.map _

end OfflineProtocol.PreSessionQueue
