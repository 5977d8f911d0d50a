import OfflineProtocol.PreSessionFlush

/-! No id leaves the pre-session queue unaccounted for: it is still queued, was dispatched, or
was reported as failed, as long as no flush drops what it kept back. -/
namespace OfflineProtocol.PreSessionQueue
open KeyedTable EventTrace Multiset List

/-- What an operation does to the ids: those handed out came in, those reported or
dispatched left, and every queued id stays with its recipient. -/
structure Conserves (q : PreSessionQueue) (new : List MessageId)
    (r : PreSessionQueue × List PreSessionEvent) : Prop where
  accounts : ∃ left : Multiset MessageId,
    r.1.queuedIds + pickIds failedId r.2 + left = q.queuedIds + (new : Multiset MessageId) ∧
      ∀ id ∈ left, id ∈ r.1.seen
  seen : ∀ id, id ∈ r.1.seen ↔ id ∈ q.seen ∨ .dispatched id ∈ r.2
  minted : r.1.minted = new ++ q.minted
  mints : pickIds mintedId r.2 = (new : Multiset MessageId)
  placed : ∀ p, ∀ id ∈ idsOf (r.1.queueFor p), id ∈ idsOf (q.queueFor p) ∨ .queued p id ∈ r.2

variable (config : PreSessionConfig) {q : PreSessionQueue} {log : List PreSessionEvent} (now : ℕ)

lemma Loses.conserves
    (h : Loses q r.1 (pickIds failedId r.2)) (hquiet : OnlyFailures r.2) : Conserves q [] r where
  accounts := by
    refine ⟨0, ?_, by simp⟩
    rw [add_zero, h.ids]
    exact (add_zero _).symm
  seen id := by simp [h.seen, hquiet.dispatches]
  minted := h.minted
  mints := hquiet.mints
  placed p id hid := .inl (mem_of_le (idsOf_le (h.shrinks p)) hid)

lemma conserves_nothing : Conserves q [] (q, []) :=
  Loses.conserves (Loses.refl q) nofun

lemma changeWelcome_conserves : Conserves q [] (q.changeWelcome config p change) := by
  apply (changeWelcome_loses config p q change).conserves
  cases change with
  | renewed => exact nofun
  | expired reason => exact abort_onlyFailures config _ p reason

lemma unblockUser_conserves : Conserves q [] (q.unblockUser config user) := by
  unfold unblockUser
  by_cases hblock : user ∈ q.blockedUsers
  · rw [if_pos hblock]
    have h := dropPendingQueueForPeer_loses config
      { q with blockedUsers := q.blockedUsers.filter (· ≠ user) } user
      "Peer session state reset on unblock"
    exact Loses.conserves ⟨h.ids, h.shrinks, h.seen, h.minted⟩ (onlyFailures_map _ _)
  · rw [if_neg hblock]
    exact conserves_nothing

lemma send_conserves (hblock : p ∉ q.blockedUsers) :
    Conserves q [m.messageId] (q.send config p m changes) := by
  unfold send
  rw [if_neg hblock]
  simp only
  set kicked := q.establish config p changes with hkick
  have hk : Loses q kicked.1 (pickIds failedId kicked.2) := establish_loses config p q changes
  have hkq : OnlyFailures kicked.2 := establish_onlyFailures config p q changes
  set minted : PreSessionQueue :=
    { kicked.1 with minted := m.messageId :: kicked.1.minted } with hminted
  obtain ⟨ht, -⟩ := queueMessage_takes config minted p m
  have hq := queueMessage_onlyFailures config minted p m
  set queued := minted.queueMessageForSessionEstablishment config p m
  have hevent (f) : pickIds f (kicked.2 ++ .queued p m.messageId :: queued.2.1) =
        pickIds f kicked.2 + (pickIds f [.queued p m.messageId] + pickIds f queued.2.1) := by
    rw [← pickIds_append, ← pickIds_append]
    rfl
  have hmint : pickIds mintedId (kicked.2 ++ .queued p m.messageId :: queued.2.1) =
      {m.messageId} := by
    rw [hevent, hkq.mints, hq.mints, zero_add, add_zero]
    rfl
  have hshrink (p') : (minted.queueFor p').Sublist (q.queueFor p') := hk.shrinks p'
  constructor
  · refine ⟨0, ?_, by simp⟩
    rw [hevent, ← hk.ids]
    have hnone : pickIds failedId [.queued p m.messageId] = 0 := rfl
    rw [hnone, zero_add, add_zero]
    calc _ = (queued.1.queuedIds + pickIds failedId queued.2.1) + pickIds failedId kicked.2 := by
          abel
      _ = (kicked.1.queuedIds + {m.messageId}) + pickIds failedId kicked.2 := by
          rw [ht.ids]
          rfl
      _ = kicked.1.queuedIds + pickIds failedId kicked.2 + {m.messageId} := by abel
  · intro id
    have hs : queued.1.seen = q.seen := ht.seen.trans hk.seen
    simp [hs, hkq.dispatches, hq.dispatches]
  · rw [ht.minted, hminted, hk.minted]
    rfl
  · exact hmint
  · intro p' id hid
    by_cases hp : p' = p
    · have hmem := mem_of_le (idsOf_le (ht.own.trans ((hshrink p).append (.refl [m])))) (hp ▸ hid)
      rw [idsOf_append, mem_add] at hmem
      rcases hmem with hmem | hmem
      · exact .inl (hp ▸ hmem)
      have hid' : id = m.messageId := by simpa using hmem
      right
      rw [hp, hid']
      exact mem_append_right _ (.head _)
    · exact .inl (mem_of_le (idsOf_le ((ht.others p' hp).trans (hshrink p'))) hid)

lemma expireMessages_splits (budget ms) : (expireMessages config now budget ms).1.Sublist ms ∧
      idsOf (expireMessages config now budget ms).1 +
        idsOf (expireMessages config now budget ms).2 = idsOf ms := by
  induction ms generalizing budget with
  | nil => cases budget <;> exact ⟨.refl _, rfl⟩
  | cons m ms ih =>
    cases budget with
    | zero => exact ⟨.refl _, add_zero _⟩
    | succ budget =>
      unfold expireMessages
      by_cases hexp : lifetimeExpired now m.queuedAt config.pendingMessageMaxLifetimeMs
      · obtain ⟨hsub, hids⟩ := ih budget
        rw [if_pos hexp]
        refine ⟨hsub.cons m, ?_⟩
        rw [idsOf_cons, idsOf_cons, ← hids]
        abel
      · obtain ⟨hsub, hids⟩ := ih (budget + 1)
        rw [if_neg hexp]
        refine ⟨hsub.cons_cons m, ?_⟩
        rw [idsOf_cons, idsOf_cons, ← hids]
        abel

/-- The pass visits each recipient once, so what it finds there is still what the
map held before the pass. -/
lemma expireQueues_loses (visited q) (gone) (hnodup : (visited.map Prod.fst).Nodup)
    (hqueue : ∀ v ∈ visited, q.queueFor v.1 = v.2) :
    ∃ expired, (expireQueues config now visited (q, gone)).2 = gone ++ expired ∧
      Loses q (expireQueues config now visited (q, gone)).1 (idsOf expired) := by
  induction visited generalizing q gone with
  | nil => exact ⟨[], (append_nil _).symm, .refl q⟩
  | cons v visited ih =>
    obtain ⟨p, ms⟩ := v
    obtain ⟨hp, hrest⟩ := nodup_cons.1 hnodup
    have hms : q.queueFor p = ms := hqueue (p, ms) (.head _)
    unfold expireQueues
    simp only
    set split := expireMessages config now (maxPendingExpiriesPerPass - gone.length) ms
    by_cases hnone : split.2.isEmpty
    · rw [if_pos hnone]
      exact ih q gone hrest fun v hv => hqueue v (.tail _ hv)
    rw [if_neg hnone]
    obtain ⟨hsub, hids⟩ := expireMessages_splits config now
      (maxPendingExpiriesPerPass - gone.length) ms
    have hset : Loses q (q.setQueue p split.1) (idsOf split.2) := by
      apply Loses.setQueue
      · exact hms ▸ hsub
      rw [hms]
      exact hids
    have hlater : ∀ v ∈ visited, (q.setQueue p split.1).queueFor v.1 = v.2 := by
      intro v hv
      have hne : v.1 ≠ p := by
        rintro rfl
        exact hp (mem_map.2 ⟨v, hv, rfl⟩)
      rw [queueFor_setQueue, if_neg hne]
      exact hqueue v (.tail _ hv)
    obtain ⟨expired, hgone, hloses⟩ := ih _ (gone ++ split.2) hrest hlater
    refine ⟨split.2 ++ expired, by rw [hgone, append_assoc], ?_⟩
    rw [idsOf_append]
    exact hset.trans hloses

lemma cleanupExpiredPendingMessages_conserves {q now}
    {order} : Conserves q [] (q.cleanupExpiredPendingMessages config now order) := by
  unfold cleanupExpiredPendingMessages
  cases q.nextPendingMessageExpiry with
  | none => exact conserves_nothing
  | some expiry =>
    simp only
    by_cases hdue : expiry ≤ now
    · rw [if_pos hdue]
      obtain ⟨expired, hgone, hloses⟩ := expireQueues_loses config now
        (visit q.pendingEncryptedMessages order) q [] visit_nodup
        (fun v hv => by simp [queueFor, mem_visit.1 hv])
      apply Loses.conserves _ (onlyFailures_map _ _)
      rw [failedIds_map, hgone, nil_append]
      exact loses_recompute hloses
    · rw [if_neg hdue]
      exact conserves_nothing

/-- A flush that loses nothing: if a message of it was refused because the Welcome had
failed for good, the Welcome is still failed when the flush ends; if it keeps a message
back for another reason, the Welcome is not. -/
def FlushKeeps (q : PreSessionQueue) (p : PeerId) (now : ℕ)
    (answers : MessageId → FlushAnswer) : Prop :=
  let failed := q.hasTerminalWelcomeFailure p
  let pending := q.queueFor p
  p ∈ q.blockedUsers ∨
    ((flushRefused config now q answers failed pending →
        flushStanding config now q answers failed pending) ∧
      (flushKeepsBack config now q answers pending →
        flushStanding config now q answers failed pending = false))

instance (config : PreSessionConfig) (q : PreSessionQueue) (p : PeerId) (now : ℕ)
    (answers : MessageId → FlushAnswer) : Decidable (FlushKeeps config q p now answers) :=
  inferInstanceAs (Decidable (_ ∨ _ ∧ _))

lemma flushPendingMessages_conserves {config}
    {now} (hnodup : q.queuedIds.Nodup) (hkeeps : FlushKeeps config q p now answers) :
    Conserves q [] (q.flushPendingMessages config p now answers) := by
  have htaken := Loses.take q p
  have hf := flushed_taken config p now answers hnodup
  have horder := flush_keeps_order config p now answers hnodup
  have hplaced : ∀ p', ∀ id ∈ idsOf ((q.flushPendingMessages config p now answers).1.queueFor p'),
      id ∈ idsOf (q.queueFor p') := fun p' id hid => (horder p').subset hid
  unfold flushPendingMessages at hplaced ⊢
  set flushed := (q.setQueue p []).flushMessages config p now answers (q.queueFor p)
  by_cases hblock : p ∈ q.blockedUsers
  · rw [if_pos hblock]
    apply Loses.conserves _ (onlyFailures_map _ _)
    rw [failedIds_map]
    exact htaken
  rw [if_neg hblock] at hplaced ⊢
  obtain ⟨hrefused, hback⟩ := hkeeps.resolve_left hblock
  obtain ⟨kept, left, hsum, hleft, hkept, hnone⟩ := hf.accounts
  have hstand : flushed.1.hasTerminalWelcomeFailure p =
      flushStanding config now q answers (q.hasTerminalWelcomeFailure p) (q.queueFor p) :=
    hf.standing
  rw [htaken.ids] at hsum
  have hmints : pickIds mintedId flushed.2.1 = (([] : List MessageId) : Multiset MessageId) :=
    hf.mints
  -- What is left of the flush when nothing rejoins the queue, because nothing is owed.
  have hdone (hzero : kept = 0) : ∃ left,
      flushed.1.queuedIds + pickIds failedId flushed.2.1 + left =
        q.queuedIds + (([] : List MessageId) : Multiset MessageId) ∧
        ∀ id ∈ left, id ∈ flushed.1.seen := by
    refine ⟨left, ?_, hleft⟩
    rw [← hsum, hzero, coe_nil]
    abel
  by_cases hrem : flushed.2.2.isEmpty
  · rw [if_pos hrem] at hplaced ⊢
    refine ⟨hdone ?_, hf.seen, hf.minted, hmints, fun p' id hid => .inl (hplaced p' id hid)⟩
    by_cases href : flushRefused config now q answers (q.hasTerminalWelcomeFailure p) (q.queueFor p)
    · apply hnone
      by_contra hyes
      have h := hback (Bool.not_eq_false _ ▸ hyes)
      rw [hrefused href] at h
      cases h
    · rw [hkept (Bool.eq_false_iff.2 href), isEmpty_iff.1 hrem, idsOf_nil]
  rw [if_neg hrem] at hplaced ⊢
  by_cases hfail : flushed.1.hasTerminalWelcomeFailure p
  · rw [if_pos hfail] at hplaced ⊢
    refine ⟨hdone (hnone ?_), hf.seen, hf.minted, hmints, fun p' id hid => .inl (hplaced p' id hid)⟩
    by_contra hyes
    have h := hback (Bool.not_eq_false _ ▸ hyes)
    rw [← hstand, hfail] at h
    cases h
  rw [if_neg hfail] at hplaced ⊢
  obtain ⟨hids, hs, hm, -⟩ := restoreRemaining_spec config p ((q.queueFor p).map (·.messageId))
    flushed.1 flushed.2.2
  have href : flushRefused config now q answers (q.hasTerminalWelcomeFailure p) (q.queueFor p) =
      false := by
    by_contra hyes
    have h := hrefused (Bool.not_eq_false _ ▸ hyes)
    rw [← hstand] at h
    exact hfail h
  refine ⟨⟨left, ?_, ?_⟩, ?_, hm.trans hf.minted, hmints, fun p' id hid => .inl (hplaced p' id hid)⟩
  · rw [hids, ← hkept href, coe_nil, add_zero, ← hsum]
    abel
  · rw [hs]
    exact hleft
  intro id
  rw [hs]
  exact hf.seen id

/-- What every run keeps: each id handed out is queued, was reported or was
dispatched, and just one of these unless a dispatched one is kept all the same. -/
structure Conserved (q : PreSessionQueue) (log : List PreSessionEvent) : Prop where
  accounts : ∃ left : Multiset MessageId,
    q.queuedIds + pickIds failedId log + left = pickIds mintedId log ∧ ∀ id ∈ left, id ∈ q.seen
  minted : (q.minted : Multiset MessageId) = pickIds mintedId log
  nodup : q.minted.Nodup
  seen : ∀ id ∈ q.seen, .dispatched id ∈ log
  placed : ∀ p, ∀ id ∈ idsOf (q.queueFor p), .queued p id ∈ log

/-- The condition on a step: the id of a send is fresh, and a flush keeps its word. -/
def Sound (q : PreSessionQueue) : Op → Prop
  | .send _ message _ => message.messageId ∉ q.minted
  | .flush recipient now answers => FlushKeeps config q recipient now answers
  | _ => True

instance (config : PreSessionConfig) (q : PreSessionQueue) (op : Op) :
    Decidable (Sound config q op) := by
  cases op <;> dsimp only [Sound] <;> infer_instance

lemma empty_conserved : Conserved empty [] where
  accounts := ⟨0, rfl, by simp⟩
  minted := rfl
  nodup := nodup_nil
  seen id hid := nomatch hid
  placed p id hid := absurd hid (notMem_zero id)

lemma Conserved.queued_nodup (h : Conserved q log) : q.queuedIds.Nodup := by
  obtain ⟨left, hsum, -⟩ := h.accounts
  have hall : (pickIds mintedId log).Nodup := h.minted ▸ coe_nodup.2 h.nodup
  rw [← hsum, add_assoc] at hall
  exact nodup_of_le (le_add_right _ _) hall

lemma step_conserves {config} (hnodup : q.queuedIds.Nodup) (hsound : Sound config q op) :
    ∃ new, Conserves q new (q.step config op) ∧ new.Nodup ∧ ∀ id ∈ new, id ∉ q.minted := by
  have hnone (h : Conserves q [] (q.step config op)) :
      ∃ new, Conserves q new (q.step config op) ∧ new.Nodup ∧ ∀ id ∈ new, id ∉ q.minted :=
    ⟨[], h, nodup_nil, nofun⟩
  cases op with
  | send p m changes =>
    by_cases hblock : p ∈ q.blockedUsers
    · apply hnone
      simp only [step, send, if_pos hblock]
      exact conserves_nothing
    refine ⟨[m.messageId], send_conserves config hblock, List.nodup_singleton _, ?_⟩
    intro id hid
    rw [List.mem_singleton.1 hid]
    exact hsound
  | flush p now answers => exact hnone (flushPendingMessages_conserves hnodup hsound)
  | expire now order => exact hnone (cleanupExpiredPendingMessages_conserves config)
  | welcome p change => exact hnone (changeWelcome_conserves config)
  | block user =>
    apply hnone
    exact Loses.conserves ⟨add_zero _, fun _ => List.Sublist.refl _, rfl, rfl⟩ nofun
  | unblock user => exact hnone (unblockUser_conserves config)

lemma step_conserved {config} (h : Conserved q log) (hsound : Sound config q op) :
    Conserved (q.step config op).1 (log ++ (q.step config op).2) := by
  obtain ⟨new, hc, hfresh, hnew⟩ := step_conserves h.queued_nodup hsound
  obtain ⟨left, hsum, hleft⟩ := h.accounts
  obtain ⟨left', hsum', hleft'⟩ := hc.accounts
  constructor
  · refine ⟨left + left', ?_, ?_⟩
    · rw [pickIds_append, pickIds_append, hc.mints, ← hsum]
      calc _ = ((q.step config op).1.queuedIds + pickIds failedId (q.step config op).2 + left') +
            (pickIds failedId log + left) := by abel
        _ = _ := by
            rw [hsum']
            abel
    · intro id hid
      rcases mem_add.1 hid with hid | hid
      · exact (hc.seen id).2 (.inl (hleft id hid))
      · exact hleft' id hid
  · rw [pickIds_append, hc.mints, ← h.minted, hc.minted, add_comm]
    rfl
  · rw [hc.minted]
    exact hfresh.append h.nodup fun id hid hold => hnew id hid hold
  · intro id hid
    rcases (hc.seen id).1 hid with hid | hid
    · exact mem_append_left _ (h.seen id hid)
    · exact mem_append_right _ hid
  · intro p id hid
    rcases hc.placed p id hid with hid | hid
    · exact mem_append_left _ (h.placed p id hid)
    · exact mem_append_right _ hid

lemma recipient_unique (hnodup : (pickIds mintedId log).Nodup) {p p' id}
    (h : .queued p id ∈ log) (h' : .queued p' id ∈ log) : p = p' := by
  induction log with
  | nil => cases h
  | cons e log ih =>
    have hsplit : pickIds mintedId (e :: log) = pickIds mintedId [e] + pickIds mintedId log :=
      pickIds_append mintedId [e] log
    rw [hsplit] at hnodup
    obtain ⟨-, hrest, hdisj⟩ := nodup_add.1 hnodup
    -- The id would be handed out twice if one of the two came first and the other later.
    have hlater {p0} (hin : .queued p0 id ∈ log) : id ∈ pickIds mintedId log :=
      mem_coe.2 (mem_filterMap.2 ⟨_, hin, rfl⟩)
    have honce {p0 p1} (heq : .queued p0 id = e) (hin : .queued p1 id ∈ log) : p = p' := by
      rw [← heq] at hdisj
      exact absurd (hlater hin) (disjoint_left.1 hdisj (Multiset.mem_singleton_self id))
    rcases mem_cons.1 h with heq | hin
    · rcases mem_cons.1 h' with heq' | hin'
      · exact (PreSessionEvent.queued.inj (heq.trans heq'.symm)).1
      · exact honce heq hin'
    rcases mem_cons.1 h' with heq' | hin'
    · exact honce heq' hin
    · exact ih hrest hin hin'

lemma exists_queue_of_mem {id} (h : id ∈ q.queuedIds) : ∃ p, id ∈ idsOf (q.queueFor p) := by
  have hsum (vs : List (List PendingMessage)) (hin : id ∈ (vs.map idsOf).sum) :
      ∃ v ∈ vs, id ∈ idsOf v := by
    induction vs with
    | nil => exact absurd hin (notMem_zero id)
    | cons v vs ih =>
      rw [List.map_cons, List.sum_cons, mem_add] at hin
      rcases hin with hin | hin
      · exact ⟨v, (.head _), hin⟩
      obtain ⟨w, hw, hid⟩ := ih hin
      exact ⟨w, mem_cons_of_mem _ hw, hid⟩
  obtain ⟨v, hv, hid⟩ := hsum (values q.pendingEncryptedMessages) h
  obtain ⟨p, hp⟩ := mem_values_iff.1 hv
  exact ⟨p, by simpa [queueFor, hp] using hid⟩

lemma run_conserved (ops) (h : AlongSteps (step config) (Sound config) empty ops) :
    Conserved (runSteps (step config) empty ops).1 (runSteps (step config) empty ops).2 := by
  have hrun := runSteps_invariant (I := Conserved) (fun q op past => step_conserved) h empty_conserved
  simpa using hrun

/-- Every id the send path queued is still queued, once and for its recipient, or was
dispatched, or was reported as failed once; and a flush keeps the order of every queue. -/
theorem pending_ids_conserved (ops : List Op)
    (h : AlongSteps (step config) (Sound config) empty ops) :
    let r := runSteps (step config) empty ops
    (∀ p id, .queued p id ∈ r.2 →
      (r.1.queuedIds.count id = 1 ∧ id ∈ (r.1.queueFor p).map (·.messageId) ∧
          (pickIds failedId r.2).count id = 0) ∨
        (r.1.queuedIds.count id = 0 ∧ .dispatched id ∈ r.2 ∧ (pickIds failedId r.2).count id = 0) ∨
        (r.1.queuedIds.count id = 0 ∧ (pickIds failedId r.2).count id = 1)) ∧
      ∀ recipient now answers p,
        (((r.1.step config (.flush recipient now answers)).1.queueFor p).map
          (·.messageId)).Sublist ((r.1.queueFor p).map (·.messageId)) := by
  intro r
  have hc : Conserved r.1 r.2 := run_conserved config ops h
  obtain ⟨left, hsum, hleft⟩ := hc.accounts
  have hall : (pickIds mintedId r.2).Nodup := hc.minted ▸ coe_nodup.2 hc.nodup
  constructor
  · intro p id hq
    have hmem : id ∈ pickIds mintedId r.2 :=
      mem_coe.2 (List.mem_filterMap.2 ⟨_, hq, rfl⟩)
    have hone : r.1.queuedIds.count id + (pickIds failedId r.2).count id + left.count id = 1 := by
      rw [← count_add, ← count_add, hsum]
      exact count_eq_one_of_mem hall hmem
    rcases Nat.eq_zero_or_pos (r.1.queuedIds.count id) with hzero | hpos
    · rcases Nat.eq_zero_or_pos ((pickIds failedId r.2).count id) with hfail | hfail
      · have hin : id ∈ left := count_pos.1 (by omega)
        exact .inr (.inl ⟨hzero, hc.seen id (hleft id hin), hfail⟩)
      · exact .inr (.inr ⟨hzero, by omega⟩)
    · obtain ⟨p', hp'⟩ := exists_queue_of_mem (count_pos.1 hpos)
      have hsame : p = p' := recipient_unique hall hq (hc.placed p' id hp')
      exact .inl ⟨by omega, hsame ▸ hp', by omega⟩
  · intro recipient now answers p
    exact flush_keeps_order config recipient now answers hc.queued_nodup p

def oneSecond : PreSessionConfig where
  pendingMessageMaxLifetimeMs := 1000
  exactDedup := true

def sealedAndSent : FlushAnswer where
  hit := true
  establishment := []
  preparation := .ready
  created := true
  dispatched := true

def sessionLost : FlushAnswer where
  hit := true
  establishment := [.expired .retryExhausted]
  preparation := .notReady
  created := true
  dispatched := true

def twoSends : List Op :=
  [.send "bob" ⟨"m1", 0, 100⟩ [], .send "bob" ⟨"m2", 600, 100⟩ []]

def givenUp : List Op :=
  twoSends ++ [.flush "bob" 700 fun id => if id = "m1" then sealedAndSent else sessionLost]

theorem pending_ids_conserved_given_up :
    AlongSteps (step oneSecond) (Sound oneSecond) empty givenUp ∧
      (pickIds failedId (runSteps (step oneSecond) empty givenUp).2).count "m2" = 1 ∧
      ∀ recipient now answers p, ((((runSteps (step oneSecond) empty givenUp).1.step oneSecond
            (.flush recipient now answers)).1.queueFor p).map (·.messageId)).Sublist
          (((runSteps (step oneSecond) empty givenUp).1.queueFor p).map (·.messageId)) :=
  ⟨by decide +kernel, by decide +kernel,
    (pending_ids_conserved oneSecond givenUp (by decide +kernel)).2⟩

/-- A flush that finds one message expired and loses the session over the next drops
both, and only the second was reported. -/
theorem flush_drops_an_expired_message :
    let r := runSteps (step oneSecond) empty (twoSends ++ [.flush "bob" 1000 fun _ => sessionLost])
    .queued "bob" "m1" ∈ r.2 ∧ r.1.queuedIds.count "m1" = 0 ∧ .dispatched "m1" ∉ r.2 ∧
      (pickIds failedId r.2).count "m1" = 0 := by
  decide +kernel

end OfflineProtocol.PreSessionQueue
