import OfflineProtocol.CustodyEviction

/-! Deposits as a whole: the indexes agree with the held frames and the budgets
hold over every sequence of operations, a refused deposit costs nothing, and a
taken one removes other depositors' frames only for the global caps. -/
namespace OfflineProtocol
open KeyedTable

namespace CustodyStore
variable {s : CustodyStore}

structure Deposit (s : CustodyStore) (c : CustodyCandidate) (a : Accepted) (s' : CustodyStore)
    (admitted : Admitted) (own others : List MessageId) (mid last : CustodyStore) : Prop where
  checked : s.check c = .ok admitted
  ownRounds : Evicts
    (fun t => t.fitsDepositor admitted.depositor (frameFootprint c.message)
      (tierQuota s.config admitted.tier).1 (tierQuota s.config admitted.tier).2)
    (fun t => t.oldestOf admitted.depositor) s own mid
  ownFits : mid.fitsDepositor admitted.depositor (frameFootprint c.message)
    (tierQuota s.config admitted.tier).1 (tierQuota s.config admitted.tier).2 = true
  allRounds : Evicts (fun t => t.fitsStore (frameFootprint c.message)) oldest mid others last
  allFits : last.fitsStore (frameFootprint c.message) = true
  stored : s' = last.insert (depositFrame c admitted)
  reported : a = ⟨c.message.id, admitted.depositor, admitted.token, own ++ others⟩

lemma judge_ok (h : (s.judge c).2 = .ok a) :
    ∃ admitted own others mid last, Deposit s c a (s.judge c).1 admitted own others mid last := by
  unfold judge at h ⊢
  cases hc : s.check c with
  | error refusal => simp [hc] at h
  | ok admitted =>
    simp only [hc] at h ⊢
    split_ifs at h ⊢ with h1 h2 h3 h4
    refine ⟨admitted, _, _, _, _, hc, evictLoop_evicts _ _ _ s, ?_, evictLoop_evicts _ _ _ _, ?_,
      rfl, (Except.ok.inj h).symm⟩
    · exact evictLoop_fits (fun t => t.fitsDepositor _ _ _ _) _ (by simpa using h2)
    · exact evictLoop_fits (fun t => t.fitsStore _) _ (by simpa using h4)

lemma judge_cases (s : CustodyStore) (c) :
    ∃ gone, ((∃ refusal, (s.judge c).2 = .error refusal) ∧ (s.judge c).1 = s.removeAll gone) ∨
      ∃ a admitted, (s.judge c).2 = .ok a ∧ a.id = c.message.id ∧ s.check c = .ok admitted ∧
        (s.judge c).1 = (s.removeAll gone).insert (depositFrame c admitted) := by
  cases hr : (s.judge c).2 with
  | ok a =>
    obtain ⟨admitted, own, others, mid, last, hd⟩ := judge_ok hr
    refine ⟨own ++ others, Or.inr ⟨a, admitted, rfl, by rw [hd.reported], hd.checked, ?_⟩⟩
    rw [hd.stored, hd.ownRounds.then_removeAll hd.allRounds]
  | error refusal =>
    have hgone : ∃ gone, (s.judge c).1 = s.removeAll gone := by
      unfold judge at hr ⊢
      cases hc : s.check c with
      | error refusal => exact ⟨[], rfl⟩
      | ok admitted =>
        simp only [hc] at hr ⊢
        split_ifs at hr ⊢
        · exact ⟨[], rfl⟩
        · exact ⟨_, (evictLoop_evicts _ _ _ s).eq_removeAll⟩
        · exact ⟨_, (evictLoop_evicts _ _ _ s).eq_removeAll⟩
        · exact ⟨_, (evictLoop_evicts _ _ _ s).then_removeAll (evictLoop_evicts _ _ _ _)⟩
    exact ⟨hgone.choose, Or.inl ⟨⟨refusal, rfl⟩, hgone.choose_spec⟩⟩

lemma tierQuota_le (config tier) :
    (tierQuota config tier).1 ≤ max config.maxEntriesPerDepositor config.strangerMaxEntries ∧
      (tierQuota config tier).2 ≤ max config.maxBytesPerDepositor config.strangerMaxBytes := by
  cases tier <;> simp [tierQuota]

/-- A frame within a non-zero quota finds room on its depositor's budget: with
every frame of the depositor gone it fits. -/
lemma own_room (hb : s.Balanced)
    (hpol : s.config.overflowPolicy = .dropOldest) (hpos : 0 < maxEntries)
    (hle : bytes ≤ maxBytes) :
    (evictLoop (fun t => t.fitsDepositor d bytes maxEntries maxBytes) (fun t => t.oldestOf d)
      s.order.length s).2.2 = true := by
  refine evictLoop_succeeds hb hpol le_rfl (fun t v hp => ?_) fun t ht _ hnone => ?_
  · obtain ⟨held, hheld, -⟩ := mem_of_oldestOf hp
    exact mem_of_get hheld
  simp only [fitsDepositor, ht.usageOf_eq_zero hnone, Usage.zero, Bool.and_eq_true,
    decide_eq_true_eq]
  omega

lemma store_room (hb : s.Balanced) (hpol : s.config.overflowPolicy = .dropOldest)
    (hpos : 0 < s.config.maxEntries) (hle : bytes ≤ s.config.maxBytes) :
    (evictLoop (fun t => t.fitsStore bytes) oldest s.order.length s).2.2 = true := by
  refine evictLoop_succeeds hb hpol le_rfl (fun t v hp => mem_of_oldest hp)
    fun t ht hcfg hnone => ?_
  simp only [fitsStore, ht.total_eq_zero hnone, Usage.zero, Bool.and_eq_true, decide_eq_true_eq,
    hcfg]
  omega

/-- A refusal changes nothing. Under drop-newest no loop evicts; under
drop-oldest the validated quotas leave no way to refuse once a loop has begun
to evict. -/
lemma judge_error_unchanged (hb : s.Balanced)
    (hv : validateCustody s.config outboxLifetimeMs = .ok ())
    (h : (s.judge c).2 = .error refusal) : (s.judge c).1 = s := by
  unfold judge at h ⊢
  cases hc : s.check c with
  | error refusal => rfl
  | ok admitted =>
    obtain ⟨hen, -, -, hstranger⟩ := check_ok hc
    obtain ⟨hpos, hle1, hle2, hle3, hle4⟩ := validateCustody_enabled hv hen
    simp only [hc] at h ⊢
    set quota := tierQuota s.config admitted.tier with hquota
    have hq : 0 < quota.1 ∧ quota.1 ≤ s.config.maxEntries ∧ quota.2 ≤ s.config.maxBytes := by
      cases ht : admitted.tier with
      | session => simp only [hquota, ht, tierQuota]; omega
      | stranger => have hs := hstranger ht; simp only [hquota, ht, tierQuota]; omega
    have hev := evictLoop_evicts (fun t => t.fitsDepositor admitted.depositor
      (frameFootprint c.message) quota.1 quota.2) (fun t => t.oldestOf admitted.depositor)
      s.order.length s
    cases hpol : s.config.overflowPolicy with
    | dropNewest =>
      split_ifs at h ⊢
      · rfl
      · exact evictLoop_dropNewest _ hpol
      · exact evictLoop_dropNewest _ hpol
      rw [evictLoop_dropNewest _ hpol]
      exact evictLoop_dropNewest _ hpol
    | dropOldest =>
      split_ifs at h ⊢ with h1 h2 h3 h4
      · rfl
      · rw [own_room hb hpol hq.1 (not_lt.1 h1)] at h2
        simp at h2
      · rw [hev.config_eq] at h3
        omega
      rw [store_room (hev.balanced hb) (by rw [hev.config_eq, hpol])
        (by rw [hev.config_eq]; omega) (not_lt.1 h3)] at h4
      simp at h4

lemma Deposit.accounts (h : Deposit s c a s' admitted own others mid last) (hb : s.Balanced)
    (hw : s.WithinBudgets) : s'.Balanced ∧ s'.WithinBudgets := by
  have hbm := h.ownRounds.balanced hb
  have hbl := h.allRounds.balanced hbm
  have hwl := h.allRounds.within hbm (h.ownRounds.within hb hw)
  have hcfg : last.config = s.config := h.allRounds.config_eq.trans h.ownRounds.config_eq
  have hnew : c.message.id ∉ last.entries := by
    rw [← get_eq_none_iff, h.allRounds.get_eq, h.ownRounds.get_eq,
      get_eq_none_iff.2 (check_ok h.checked).2.1]
    simp
  -- Global evictions only lower the depositor's usage, so its own fit survives them.
  have hfit := h.allRounds.preserves
    (P := fun t => t.Balanced ∧ t.fitsDepositor admitted.depositor (frameFootprint c.message)
      (tierQuota s.config admitted.tier).1 (tierQuota s.config admitted.tier).2 = true)
    (fun t id ht => ⟨ht.1.removeInner, by
      have hle := (ht.1.removeInner_le id).2.2 admitted.depositor
      have hft := ht.2
      simp only [fitsDepositor, Bool.and_eq_true, decide_eq_true_eq] at hft ⊢
      omega⟩) ⟨hbm, h.ownFits⟩
  have hquota := tierQuota_le s.config admitted.tier
  rw [h.stored]
  exact ⟨hbl.insert hnew, WithinBudgets.insert hwl hfit.2 h.allFits
    (by rw [hcfg]; exact hquota.1) (by rw [hcfg]; exact hquota.2)⟩

inductive Op
  | judge (candidate : CustodyCandidate)
  | admitRestored (message : Message) (depositor : PeerId) (acceptedAtMs : ℤ) (frameClass : String)
  | expire (nowMs : ℤ) (holdMs : ℕ)
  | markQueued (id : MessageId) (peer : PeerId)
  | returned (id : MessageId)
  | recordReOriginated (id : MessageId)
  | recordDelivered (id : MessageId)
  | erase

def step (s : CustodyStore) : Op → CustodyStore
  | .judge c => (s.judge c).1
  | .admitRestored message depositor acceptedAtMs frameClass =>
    (s.admitRestored message depositor acceptedAtMs frameClass).1
  | .expire nowMs holdMs => (s.expire nowMs holdMs).1
  | .markQueued id peer => s.markQueued id peer
  | .returned id => s.returned id
  | .recordReOriginated id => s.recordReOriginated id
  | .recordDelivered id => (s.recordDelivered id).1
  | .erase => s.erase.1

structure Accounted (config : CustodyConfig) (s : CustodyStore) : Prop where
  config_eq : s.config = config
  balanced : s.Balanced
  within : s.WithinBudgets

variable {config : CustodyConfig}

section
variable (h : Accounted config s)
include h

lemma Accounted.removeInner {id} : Accounted config (s.removeInner id).1 :=
  ⟨by rw [removeInner_config, h.config_eq], h.balanced.removeInner,
    h.within.removeInner h.balanced id⟩

lemma Accounted.judge (hv : validateCustody config outboxLifetimeMs = .ok ()) (c) :
    Accounted config (s.judge c).1 := by
  cases hr : (s.judge c).2 with
  | error refusal =>
    rw [judge_error_unchanged h.balanced (h.config_eq ▸ hv) hr]
    exact h
  | ok a =>
    obtain ⟨admitted, own, others, mid, last, hd⟩ := judge_ok hr
    obtain ⟨hb, hw⟩ := hd.accounts h.balanced h.within
    refine ⟨?_, hb, hw⟩
    rw [hd.stored]
    exact (hd.allRounds.config_eq.trans hd.ownRounds.config_eq).trans h.config_eq

lemma Accounted.admitRestored {message depositor} {acceptedAtMs frameClass} :
    Accounted config (s.admitRestored message depositor acceptedAtMs frameClass).1 := by
  simp only [CustodyStore.admitRestored]
  split_ifs with hdup hfit
  · exact h
  · exact h
  simp only [Bool.or_eq_true, Bool.not_eq_true', not_or, Bool.not_eq_false] at hfit
  exact ⟨h.config_eq, h.balanced.insert hdup, h.within.insert hfit.1 hfit.2 le_rfl le_rfl⟩

lemma Accounted.modify {id} (f)
    (hm : ∀ g, (f g).message = g.message) (hd : ∀ g, (f g).depositor = g.depositor)
    (hy : ∀ g, (f g).bytes = g.bytes) :
    Accounted config { s with entries := modify s.entries id f } :=
  ⟨h.config_eq, h.balanced.modify f hm hd hy, h.within.entries_le, h.within.bytes_le,
    h.within.depositor_entries_le, h.within.depositor_bytes_le⟩

omit h in
lemma returnedFrame_keeps : (returnedFrame g).message = g.message ∧
    (returnedFrame g).depositor = g.depositor ∧ (returnedFrame g).bytes = g.bytes := by
  unfold returnedFrame
  split <;> exact ⟨rfl, rfl, rfl⟩

lemma Accounted.step (hv : validateCustody config outboxLifetimeMs = .ok ()) (op) :
    Accounted config (s.step op) := by
  cases op with
  | judge c => exact h.judge hv c
  | admitRestored message depositor at_ frameClass =>
    exact h.admitRestored
  | expire nowMs holdMs => exact removeAll_preserves (fun _ id hs => hs.removeInner) h
  | markQueued id peer => exact h.modify _ (fun _ => rfl) (fun _ => rfl) fun _ => rfl
  | returned id =>
    exact h.modify _ (fun g => returnedFrame_keeps.1)
      (fun g => returnedFrame_keeps.2.1) fun g => returnedFrame_keeps.2.2
  | recordReOriginated id => exact h.modify _ (fun _ => rfl) (fun _ => rfl) fun _ => rfl
  | recordDelivered id => exact h.removeInner
  | erase => exact ⟨h.config_eq, new_balanced _, new_within _⟩

end

lemma Deposit.reports (h : Deposit s c a s' admitted own others mid last) :
    a.evicted.Nodup ∧ (∀ x, x ∈ a.evicted ↔ x ∈ s.entries ∧ x ∉ s'.entries) ∧
      ∀ x, x ≠ c.message.id → x ∉ a.evicted → get s'.entries x = get s.entries x := by
  obtain ⟨hnd1, hin1⟩ := h.ownRounds.held fun t v hp => by
    obtain ⟨held, hheld, -⟩ := mem_of_oldestOf hp
    exact mem_of_get hheld
  obtain ⟨hnd2, hin2⟩ := h.allRounds.held fun t v hp => mem_of_oldest hp
  have hnew : c.message.id ∉ s.entries := (check_ok h.checked).2.1
  have hget : ∀ x, get s'.entries x =
      if x = c.message.id then some (depositFrame c admitted)
      else if x ∈ own ++ others then none else get s.entries x := by
    intro x
    rw [h.stored, CustodyStore.insert, get_insert, h.allRounds.get_eq, h.ownRounds.get_eq]
    simp only [List.mem_append, depositFrame]
    by_cases ho : x ∈ own <;> by_cases ht : x ∈ others <;> simp [ho, ht]
  have hmid : ∀ v ∈ others, v ∈ s.entries ∧ v ∉ own := by
    intro v hv
    have hm := hin2 v hv
    rw [mem_iff_exists_get] at hm ⊢
    obtain ⟨f, hf⟩ := hm
    rw [h.ownRounds.get_eq] at hf
    split_ifs at hf with ho
    exact ⟨⟨f, hf⟩, ho⟩
  have hev : a.evicted = own ++ others := by rw [h.reported]
  rw [hev]
  refine ⟨?_, fun x => ?_, fun x hne hx => ?_⟩
  · refine List.nodup_append.2 ⟨hnd1, hnd2, fun x hx y hy he => ?_⟩
    exact (hmid y hy).2 (he ▸ hx)
  · have hheld : x ∈ own ++ others → x ∈ s.entries := by
      intro hx
      rcases List.mem_append.1 hx with hx | hx
      · exact hin1 x hx
      · exact (hmid x hx).1
    rw [← get_eq_none_iff, hget]
    by_cases hxid : x = c.message.id
    · have hout : x ∉ own ++ others := fun hx => hnew (hxid ▸ hheld hx)
      rw [if_pos hxid]
      exact ⟨fun hx => absurd hx hout, fun hx => by cases hx.2⟩
    rw [if_neg hxid]
    constructor
    · intro hx
      exact ⟨hheld hx, if_pos hx⟩
    rintro ⟨hin, hnone⟩
    by_contra hx
    rw [if_neg hx] at hnone
    exact get_eq_none_iff.1 hnone hin
  · rw [hget, if_neg hne, if_neg hx]

/-- In every run of a validated store the indexes agree with the held frames and the budgets hold;
a refused deposit changes nothing, and a taken one removes its own depositor's frames first, then
the globally oldest, only as far as the caps demand. -/
theorem custody_accounting_and_fairness (config : CustodyConfig) (outboxLifetimeMs : ℕ)
    (hv : validateCustody config outboxLifetimeMs = .ok ()) (ops : List Op) :
    let s := ops.foldl step (new config)
    s.Balanced ∧ s.WithinBudgets ∧
      (∀ c refusal, (s.judge c).2 = .error refusal → (s.judge c).1 = s) ∧
      ∀ c a, (s.judge c).2 = .ok a →
        (a.evicted.Nodup ∧ (∀ x, x ∈ a.evicted ↔ x ∈ s.entries ∧ x ∉ (s.judge c).1.entries) ∧
          ∀ x, x ≠ c.message.id → x ∉ a.evicted → get (s.judge c).1.entries x = get s.entries x) ∧
        ∃ admitted own others mid last, Deposit s c a (s.judge c).1 admitted own others mid last ∧
          (∀ x ∈ own, ∃ held, get s.entries x = some held ∧ held.depositor = admitted.depositor) ∧
          mid.order = others ++ last.order := by
  intro s
  have hs : Accounted config s :=
    List.foldlRecOn ops step ⟨rfl, new_balanced config, new_within config⟩ fun _ ht op _ =>
      ht.step hv op
  refine ⟨hs.balanced, hs.within, fun c refusal hr => ?_, fun c a ha => ?_⟩
  · exact judge_error_unchanged hs.balanced (hs.config_eq ▸ hv) hr
  obtain ⟨admitted, own, others, mid, last, hd⟩ := judge_ok ha
  exact ⟨hd.reports, admitted, own, others, mid, last, hd, hd.ownRounds.own_frames,
    hd.allRounds.oldest_first (hd.ownRounds.balanced hs.balanced)⟩

def narrowConfig : CustodyConfig where
  enabled := true
  holdMs := 1000
  maxEntriesPerDepositor := 1
  maxBytesPerDepositor := 65536
  maxEntries := 2
  maxBytes := 65536
  strangerMaxEntries := 0
  strangerMaxBytes := 0
  overflowPolicy := .dropOldest

def sealedDeposit (id : MessageId) (sender recipient : PeerId) : CustodyCandidate where
  message :=
    { id := id, sender := sender, recipient := recipient, appId := "app", priority := .medium,
      ttl := 5, hopCount := 1, content := "__MLS_ENC__x", binaryContent := none,
      mediaMetadata := none, metadata := ∅ }
  request := some "data"
  arrivalPeer := some sender
  sessionTier := true
  batteryOk := true
  nowMs := 0

theorem custody_accounting_narrow :
    validateCustody narrowConfig 2000 = .ok () ∧
      (let s := [Op.judge (sealedDeposit "m1" "a" "r"), .judge (sealedDeposit "m2" "b" "r")].foldl
          step (new narrowConfig)
       s.order = ["m1", "m2"] ∧ s.Balanced ∧ s.WithinBudgets ∧
         (s.judge (sealedDeposit "m3" "a" "r")).1.order = ["m2", "m3"] ∧
         (s.judge (sealedDeposit "m3" "a" "r")).2 = .ok ⟨"m3", "a", "data", ["m1"]⟩ ∧
         ∀ x, x ≠ "m3" → x ∉ ["m1"] →
           get (s.judge (sealedDeposit "m3" "a" "r")).1.entries x = get s.entries x) := by
  have h := custody_accounting_and_fairness narrowConfig 2000 (by decide)
    [Op.judge (sealedDeposit "m1" "a" "r"), .judge (sealedDeposit "m2" "b" "r")]
  have hok : (CustodyStore.judge
      ([Op.judge (sealedDeposit "m1" "a" "r"), .judge (sealedDeposit "m2" "b" "r")].foldl
        step (new narrowConfig)) (sealedDeposit "m3" "a" "r")).2 =
      .ok ⟨"m3", "a", "data", ["m1"]⟩ := by rfl
  exact ⟨by decide, by decide +kernel, h.1, h.2.1, by decide +kernel, hok, (h.2.2.2 _ _ hok).1.2.2⟩

end CustodyStore

end OfflineProtocol
