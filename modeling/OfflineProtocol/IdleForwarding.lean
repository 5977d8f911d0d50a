import OfflineProtocol.AirtimeCeiling
import Mathlib.Algebra.Order.Archimedean.Basic
import Mathlib.Tactic.NormNum

/-! Which accepted configurations let an idle device forward at all, after any
changes of its conditions. -/
namespace OfflineProtocol
open KeyedTable TokenBucket AirArith EventTrace

/-- The checks of the configuration's mesh section in their order: what is
refused, and with which words. -/
def meshRelayChecks (c : MeshRelayConfig ℚ) : List (Bool × String) :=
  [(c.fanout == 0, "mesh_relay.fanout must be greater than 0"),
    (c.maxTtl == 0, "mesh_relay.max_ttl must be greater than 0"),
    (c.denseMaxTtl == 0, "mesh_relay.dense_max_ttl must be greater than 0"),
    (c.queueCapacity == 0, "mesh_relay.queue_capacity must be greater than 0")] ++
  [("rate_per_sec", c.ratePerSec), ("burst", c.burst), ("peer_rate_per_sec", c.peerRatePerSec),
      ("peer_burst", c.peerBurst)].map
    (fun dial => (decide (dial.2 ≤ 0),
      "mesh_relay." ++ dial.1 ++ " must be finite and greater than 0")) ++
  [(decide (c.biasMinScale ≤ 0 ∨ 1 < c.biasMinScale),
      "mesh_relay.bias_min_scale must be finite and in (0.0, 1.0]"),
    (decide (c.jitterMax < c.jitterMin), "mesh_relay.jitter_min (" ++ toString c.jitterMin ++
      "ms) must not exceed mesh_relay.jitter_max (" ++ toString c.jitterMax ++ "ms)"),
    (decide (relayQueueMaxOverdue ≤ c.jitterMax + c.biasMaxHandicap),
      "mesh_relay.jitter_max + mesh_relay.bias_max_handicap (" ++
        toString (c.jitterMax + c.biasMaxHandicap) ++ "ms) must stay under the " ++
        toString relayQueueMaxOverdue ++
        "ms overdue cut-off, or every biased forward is abandoned instead of sent"),
    (c.activityWindow == 0, "mesh_relay.activity_window must be greater than zero"),
    (c.activityMinForwards == 0, "mesh_relay.activity_min_forwards must be greater than 0"),
    (c.activityIdleWindows == 0, "mesh_relay.activity_idle_windows must be greater than 0")]

def validateMeshRelay (c : MeshRelayConfig ℚ) : Except String Unit :=
  match (meshRelayChecks c).find? Prod.fst with
  | some refused => .error refused.2
  | none => .ok ()

lemma validateMeshRelay_ok :
    validateMeshRelay c = .ok () ↔ ∀ check ∈ meshRelayChecks c, check.1 = false := by
  have hfind := List.find?_eq_none (p := Prod.fst) (l := meshRelayChecks c)
  simp only [Bool.not_eq_true] at hfind
  rw [← hfind]
  unfold validateMeshRelay
  cases (meshRelayChecks c).find? Prod.fst with
  | none => simp
  | some refused => simp

lemma validateMeshRelay_capacity (h : validateMeshRelay c = .ok ()) : c.queueCapacity ≠ 0 := by
  have hcheck := validateMeshRelay_ok.1 h (c.queueCapacity == 0, _)
    (List.mem_append_left _ (List.mem_append_left _ (List.mem_cons_of_mem _
      (.tail _ (.tail _ (.head _))))))
  simpa using hcheck

lemma validateMeshRelay_dials (h : validateMeshRelay c = .ok ()) :
    0 < c.burst ∧ 0 < c.ratePerSec ∧ 0 < c.biasMinScale := by
  have hcheck := validateMeshRelay_ok.1 h
  simp only [meshRelayChecks, List.map_cons, List.map_nil, List.mem_append, List.mem_cons,
    or_imp, forall_and, forall_eq, decide_eq_false_iff_not, not_le, not_or] at hcheck
  exact ⟨hcheck.1.2.2.1, hcheck.1.2.1, hcheck.2.1.1⟩

namespace TokenBucket
variable {b : TokenBucket ℚ} {now t : ℕ}

lemma Sane.level_full (h : b.Sane now) (hfull : b.level now = b.capacity) (hle : now ≤ t) :
    b.level t = b.capacity := by
  rw [← h.level_refill hle, level_eq h.refill.full, (refill_fields b now).1]
  apply min_eq_right
  have hgain := mul_nonneg (seconds_nonneg (t - (b.refill now).lastRefill)) h.refill.rate
  change b.level now + _ ≥ _
  linarith

/-- A bucket that refills at all is full after a long enough wait. -/
lemma Sane.level_waited (h : b.Sane now) (hrate : 0 < b.refillPerSec) :
    ∃ wait, ∀ t, now + wait ≤ t → b.level t = b.capacity := by
  obtain ⟨wait, hwait⟩ := exists_nat_ge (b.capacity / b.refillPerSec * 1000)
  refine ⟨wait, fun t ht => ?_⟩
  have hspan : b.capacity / b.refillPerSec ≤ seconds (t - b.lastRefill) := by
    have hlong : wait ≤ t - b.lastRefill := by
      have := h.behind
      omega
    simp only [seconds]
    rw [le_div_iff₀ (by norm_num)]
    exact hwait.trans (Nat.cast_le.2 hlong)
  rw [level_eq h.full]
  apply min_eq_right
  have hgain := (div_le_iff₀ hrate).1 hspan
  have := h.nonneg
  linarith

end TokenBucket

namespace MeshRelayGovernor
variable {host : HashHost} {g : MeshRelayGovernor ℚ} {message : Message} {peer : PeerId}
  {degree now t : ℕ}

structure Refilled (g : MeshRelayGovernor ℚ) (now : ℕ) : Prop where
  send : g.sendBudget.level now = g.sendBudget.capacity
  forward : g.forwardBudget.level now = g.forwardBudget.capacity

/-- The meters are dialled as the configuration and the present conditions say:
the shared one to the burst, less the reserve for forwards, and the forwards' own
to the burst scaled by the bias. -/
structure Dialled (g : MeshRelayGovernor ℚ) (now : ℕ) : Prop where
  send : g.sendBudget.Sane now
  sendCapacity : g.sendBudget.capacity = g.config.burst
  forward : g.forwardBudget.Sane now
  forwardCapacity : g.forwardBudget.capacity = g.config.burst * g.biasScale
  reserve : g.ownReserve = min 5 (g.config.burst / 2)

/-- A frame nobody has sent before, from a neighbor not heard from before, with
hops to spare. -/
structure FirstHeard (g : MeshRelayGovernor ℚ) (message : Message) (peer : PeerId) (now : ℕ) :
    Prop where
  fresh : g.seen.contains now message.id = false
  hopCount : message.hopCount = 0
  ttl : 3 ≤ message.ttl
  neighbor : peer ∉ g.peerBudgets

/-- The frame is queued, and once its delay has elapsed it is released and may
be transmitted. -/
def Forwards (host : HashHost) (g : MeshRelayGovernor ℚ) (message : Message) (peer : PeerId)
    (degree now : ℕ) : Prop :=
  ∃ relay, (g.admitMessage host message (some peer) degree now).2.1 = .queued ∧
    (g.admitMessage host message (some peer) degree now).1.pending = [relay] ∧
    ∀ t, relay.dueAt ≤ t → t ≤ relay.dueAt + relayQueueMaxOverdue →
      relay ∈ ((g.admitMessage host message (some peer) degree now).1.releaseDue t).2.1 ∧
      (((g.admitMessage host message (some peer) degree now).1.releaseDue t).1.takeSendToken t).2 =
        true

/-- The hop ceiling at this density leaves a hop, a neighbor's bucket holds a
whole token, and so do both meters, the shared one above its reserve. -/
structure Sufficient (g : MeshRelayGovernor ℚ) (degree : ℕ) : Prop where
  ceiling : 1 < if g.config.denseDegree ≤ degree then g.config.denseMaxTtl else g.config.maxTtl
  peerBurst : 1 ≤ g.config.peerBurst
  burst : 2 ≤ g.config.burst
  scaled : 1 ≤ g.config.burst * g.biasScale

lemma takePeerToken_first (host now) (hpeer : peer ∉ g.peerBudgets) :
    ∃ budgets, takePeerToken host g peer now =
      ({ g with peerBudgets := budgets }, decide (1 ≤ g.config.peerBurst)) := by
  have hnew : ((new g.config.peerBurst g.config.peerRatePerSec now).tryTakeAbove 0
      now).2 = decide (1 ≤ g.config.peerBurst) := by
    have hmax : 1 ≤ max g.config.peerBurst 0 ↔ 1 ≤ g.config.peerBurst := by
      rw [le_max_iff]
      exact or_iff_left (by norm_num)
    have hlast : (new g.config.peerBurst g.config.peerRatePerSec now).lastRefill = now :=
      rfl
    unfold tryTakeAbove
    rw [refill_self hlast]
    simp only [new, leB, add_zero, hmax]
    split_ifs with hone
    · exact hone.symm
    · exact (Bool.eq_false_of_not_eq_true hone).symm
  simp only [takePeerToken, if_neg hpeer, get_insert_self, hnew]
  exact ⟨_, rfl⟩

lemma hasSendBudget_iff (g : MeshRelayGovernor ℚ) (t) : (g.hasSendBudget t).2 = true ↔
      1 + g.ownReserve ≤ g.sendBudget.level t ∧ 1 ≤ g.forwardBudget.level t := by
  constructor
  · intro h
    exact ⟨(hasSendBudget_true h).1, (hasSendBudget_true h).2.1⟩
  rintro ⟨hsend, hforward⟩
  unfold level at hsend hforward
  simp only [hasSendBudget, hasAbove, leB, add_zero, decide_eq_true hsend, if_true]
  exact decide_eq_true hforward

lemma takeSendToken_eq (g : MeshRelayGovernor ℚ) (t) :
    (g.takeSendToken t).2 = (g.hasSendBudget t).2 := by
  unfold takeSendToken
  dsimp only
  split_ifs with h
  · exact h.symm
  · exact (Bool.eq_false_of_not_eq_true h).symm

lemma Dialled.allows_iff (h : Dialled g now) (hfull : Refilled g now) (hle : now ≤ t) :
    1 + g.ownReserve ≤ g.sendBudget.level t ∧ 1 ≤ g.forwardBudget.level t ↔
      2 ≤ g.config.burst ∧ 1 ≤ g.config.burst * g.biasScale := by
  rw [h.send.level_full hfull.send hle, h.forward.level_full hfull.forward hle, h.sendCapacity,
    h.forwardCapacity, h.reserve]
  apply and_congr_left'
  constructor
  · intro hroom
    rcases le_total 5 (g.config.burst / 2) with hlarge | hsmall
    · linarith
    rw [min_eq_right hsmall] at hroom
    linarith
  · intro hburst
    have := min_le_right 5 (g.config.burst / 2)
    linarith

lemma prepareHop_isSome (g : MeshRelayGovernor ℚ) (degree) (hhop : message.hopCount = 0)
    (httl : 3 ≤ message.ttl) :
    (g.prepareHop message degree).isSome ↔
      1 < if g.config.denseDegree ≤ degree then g.config.denseMaxTtl else g.config.maxTtl := by
  have hhops : ¬relayMaxHopCount ≤ message.hopCount.toNat := by
    rw [hhop]
    decide
  unfold prepareHop
  rw [if_neg hhops]
  generalize (if g.config.denseDegree ≤ degree then g.config.denseMaxTtl else g.config.maxTtl) =
    ceiling
  have hmin : 1 < min message.ttl ceiling ↔ 1 < ceiling := by
    change (1 < if message.ttl ≤ ceiling then message.ttl else ceiling) ↔ 1 < ceiling
    have hclaim : 1 < message.ttl := UInt8.lt_of_lt_of_le (by decide) httl
    split_ifs with hle
    · exact iff_of_true hclaim (UInt8.lt_of_lt_of_le hclaim hle)
    · exact .rfl
  by_cases hceil : 1 < ceiling
  · simp [Message.decrementTtl, if_pos (hmin.2 hceil), hceil]
  · simp [Message.decrementTtl, if_neg (fun h => hceil (hmin.1 h)), hceil]

structure Queued (g g' : MeshRelayGovernor ℚ) (relay : PendingRelay) (now : ℕ) : Prop where
  pending : g'.pending = [relay]
  due : now ≤ relay.dueAt
  send : g'.sendBudget = g.sendBudget
  forward : g'.forwardBudget = g.forwardBudget
  reserve : g'.ownReserve = g.ownReserve

lemma admit_first (host degree) (hpending : g.pending = [])
    (hcap : g.config.queueCapacity ≠ 0) (h : FirstHeard g message peer now) :
    ((g.admitMessage host message (some peer) degree now).2.1 = .queued ↔
      1 ≤ g.config.peerBurst ∧ (g.prepareHop message degree).isSome) ∧
    ((g.admitMessage host message (some peer) degree now).2.1 = .queued →
      ∃ relay, Queued g (g.admitMessage host message (some peer) degree now).1 relay now) := by
  obtain ⟨budgets, htoken⟩ := takePeerToken_first host now h.neighbor
  simp only [admitMessage, h.fresh, Bool.false_and, Bool.false_eq_true, if_false,
    admitUnsuppressed, chargeArrival, htoken]
  by_cases hburst : 1 ≤ g.config.peerBurst
  · have hhop : ({ g with peerBudgets := budgets } : MeshRelayGovernor ℚ).prepareHop message
        degree = g.prepareHop message degree := rfl
    simp only [decide_eq_true hburst, Bool.not_true, Bool.false_eq_true, if_false, hhop]
    cases hprep : g.prepareHop message degree with
    | none => simp
    | some forwarded =>
      have hroom : ¬g.config.queueCapacity ≤ ([] : List PendingRelay).length := by
        rw [List.length_nil]
        omega
      simp only [makeRoom, hpending, if_neg hroom, accept, List.nil_append]
      refine ⟨by simp [hburst], fun _ => ⟨_, rfl, Nat.le_add_right _ _, rfl, rfl, rfl⟩⟩
  · simp [hburst]

lemma release_lone {g' : MeshRelayGovernor ℚ}
    (hpending : g'.pending = [relay]) (hdue : relay.dueAt ≤ t)
    (hover : t ≤ relay.dueAt + relayQueueMaxOverdue) :
    relay ∈ (g'.releaseDue t).2.1 ↔ (g'.hasSendBudget t).2 = true := by
  have hnot : ¬relayQueueMaxOverdue < t - relay.dueAt := by omega
  have hsame : (({ g' with seen := g'.seen.expire t, pending := [] } : MeshRelayGovernor
      ℚ).hasSendBudget t).2 = (g'.hasSendBudget t).2 := by
    simp only [hasSendBudget]
    split_ifs <;> rfl
  simp only [releaseDue, hpending, releaseLoop, if_neg (not_lt.2 hdue), if_neg hnot, hsame]
  split_ifs with hbudget
  · simp [hbudget]
  · simp [hbudget]

lemma Queued.allows_iff (h : Queued g g' relay now) (hdial : Dialled g now)
    (hfull : Refilled g now) (hdue : relay.dueAt ≤ t) :
    (g'.hasSendBudget t).2 = true ↔ 2 ≤ g.config.burst ∧ 1 ≤ g.config.burst * g.biasScale := by
  rw [hasSendBudget_iff, h.send, h.forward, h.reserve]
  exact hdial.allows_iff hfull (h.due.trans hdue)

lemma take_after_release {g' : MeshRelayGovernor ℚ} (hsend : g'.sendBudget.Sane t)
    (hforward : g'.forwardBudget.Sane t) (hbudget : (g'.hasSendBudget t).2 = true) :
    ((g'.releaseDue t).1.takeSendToken t).2 = true := by
  have hlooks := releaseLoop_looks g'.pending
    { g' with seen := g'.seen.expire t, pending := [] } hsend hforward
  rw [takeSendToken_eq, hasSendBudget_iff]
  rw [hasSendBudget_iff] at hbudget
  simp only [releaseDue, hlooks.reserve, hlooks.send.level t le_rfl, hlooks.forward.level t le_rfl]
  exact hbudget

lemma Dialled.forwards_iff (h : Dialled g now) (hfull : Refilled g now) (hpending : g.pending = [])
    (hvalid : validateMeshRelay g.config = .ok ()) (hfirst : FirstHeard g message peer now) :
    Forwards host g message peer degree now ↔ Sufficient g degree := by
  obtain ⟨hadmits, hqueued⟩ := admit_first host degree hpending
    (validateMeshRelay_capacity hvalid) hfirst
  have hhop := prepareHop_isSome g degree hfirst.hopCount hfirst.ttl
  constructor
  · rintro ⟨relay, hout, hlone, hreleased⟩
    obtain ⟨other, hq⟩ := hqueued hout
    obtain rfl : other = relay := List.singleton_inj.1 (hq.pending.symm.trans hlone)
    obtain ⟨hmem, -⟩ := hreleased other.dueAt le_rfl (Nat.le_add_right _ _)
    obtain ⟨hburst, hscaled⟩ := (hq.allows_iff h hfull le_rfl).1
      ((release_lone hlone le_rfl (Nat.le_add_right _ _)).1 hmem)
    exact ⟨hhop.1 (hadmits.1 hout).2, (hadmits.1 hout).1, hburst, hscaled⟩
  · intro hsufficient
    have hout := hadmits.2 ⟨hsufficient.peerBurst, hhop.2 hsufficient.ceiling⟩
    obtain ⟨relay, hq⟩ := hqueued hout
    refine ⟨relay, hout, hq.pending, fun t hdue hover => ?_⟩
    have hbudget := (hq.allows_iff h hfull hdue).2 ⟨hsufficient.burst, hsufficient.scaled⟩
    have hle := hq.due.trans hdue
    exact ⟨(release_lone hq.pending hdue hover).2 hbudget,
      take_after_release (hq.send ▸ h.send.later hle) (hq.forward ▸ h.forward.later hle) hbudget⟩

lemma biasScale_pos (hscale : 0 < g.config.biasMinScale) : 0 < g.biasScale := by
  have hmin : 0 < clamp01 g.config.biasMinScale :=
    lt_min (lt_max_of_lt_left hscale) one_pos
  unfold biasScale
  dsimp only
  split_ifs
  · exact one_pos
  cases g.conditions.battery with
  | none => exact one_pos
  | some level =>
    dsimp only
    split_ifs
    · exact one_pos
    · exact hmin
    have hroom : (0 : ℚ) ≤ 1 - clamp01 g.config.biasMinScale := sub_nonneg.2 (min_le_right _ _)
    refine add_pos_of_pos_of_nonneg hmin (mul_nonneg (div_nonneg ?_ ?_) hroom)
    · exact Nat.cast_nonneg _
    · exact Nat.cast_nonneg _

/-- What every call but a change of the conditions leaves alone. -/
structure SameDials (g g' : MeshRelayGovernor ℚ) : Prop where
  config : g'.config = g.config
  conditions : g'.conditions = g.conditions
  capacity : g'.forwardBudget.capacity = g.forwardBudget.capacity
  rate : g'.forwardBudget.refillPerSec = g.forwardBudget.refillPerSec

lemma SameDials.trans (h : SameDials g g') (h' : SameDials g' g'') : SameDials g g'' :=
  ⟨h'.config.trans h.config, h'.conditions.trans h.conditions, h'.capacity.trans h.capacity,
    h'.rate.trans h.rate⟩

lemma SameDials.biasScale_eq (h : SameDials g g') : g'.biasScale = g.biasScale := by
  simp only [biasScale, h.config, h.conditions]

lemma hasSendBudget_sameDials (g : MeshRelayGovernor ℚ) (now) :
    SameDials g (g.hasSendBudget now).1 := by
  have hfields := refill_fields g.forwardBudget now
  unfold hasSendBudget
  dsimp only [hasAbove]
  split_ifs
  · exact ⟨rfl, rfl, hfields.1, hfields.2⟩
  · exact ⟨rfl, rfl, rfl, rfl⟩

lemma takeSendToken_sameDials (g : MeshRelayGovernor ℚ) (now) :
    SameDials g (g.takeSendToken now).1 := by
  have hkept := hasSendBudget_sameDials g now
  unfold takeSendToken
  dsimp only
  split_ifs
  · exact ⟨hkept.config, hkept.conditions, hkept.capacity, hkept.rate⟩
  · exact hkept

lemma releaseLoop_sameDials (now relays) (g : MeshRelayGovernor ℚ) :
    SameDials g (releaseLoop now g relays).governor := by
  induction relays generalizing g with
  | nil => exact ⟨rfl, rfl, rfl, rfl⟩
  | cons relay relays ih =>
    unfold releaseLoop
    split_ifs
    · exact ih g
    · have hrest := ih { g with seen := g.seen.forget relay.message.id }
      exact ⟨hrest.config, hrest.conditions, hrest.capacity, hrest.rate⟩
    · exact ih g
    have hboth := (hasSendBudget_sameDials g now).trans (ih (g.hasSendBudget now).1)
    dsimp only
    split_ifs
    · exact hboth
    · exact hboth

def firstHeardMessage : Message where
  id := "m"
  sender := "s"
  recipient := "r"
  appId := "app"
  priority := .medium
  ttl := 8
  hopCount := 0
  content := ""
  binaryContent := none
  mediaMetadata := none
  metadata := ∅

def plainHost : HashHost := ⟨fun _ => 0, id⟩

end MeshRelayGovernor

namespace AirRun
open MeshRelayGovernor
variable {w : AirRun} {config : MeshRelayConfig ℚ} {now degree : ℕ} {message : Message}
  {peer : PeerId} {host : HashHost}

/-- The forwards' own meter follows the conditions, over one configuration. -/
structure Biased (config : MeshRelayConfig ℚ) (w : AirRun) : Prop where
  capacity : w.governor.forwardBudget.capacity = config.burst * w.governor.biasScale
  rate : w.governor.forwardBudget.refillPerSec = config.ratePerSec * w.governor.biasScale
  config : w.governor.config = config

lemma Biased.keep (h : Biased config w) (hkept : SameDials w.governor w'.governor) :
    Biased config w' where
  config := hkept.config.trans h.config
  capacity := by rw [hkept.biasScale_eq, hkept.capacity, h.capacity]
  rate := by rw [hkept.biasScale_eq, hkept.rate, h.rate]

lemma Biased.step (hvalid : validateMeshRelay config = .ok ()) (h : Biased config w)
    (a : ℕ × AirOp) : Biased config (w.step a).1 := by
  obtain ⟨elapsed, op⟩ := a
  cases op with
  | takeSendToken => exact h.keep (takeSendToken_sameDials w.governor _)
  | takeOwnSendToken => exact h.keep ⟨rfl, rfl, rfl, rfl⟩
  | releaseDue =>
    have hkept := releaseLoop_sameDials (w.clock + elapsed) w.governor.pending
      { w.governor with seen := w.governor.seen.expire (w.clock + elapsed), pending := [] }
    exact h.keep ⟨hkept.config, hkept.conditions, hkept.capacity, hkept.rate⟩
  | setConditions conditions =>
    obtain ⟨hburst, hrate, hscale⟩ := validateMeshRelay_dials hvalid
    have hpos := biasScale_pos (g := { w.governor with conditions := conditions })
      (h.config ▸ hscale)
    rw [← h.config] at hburst hrate ⊢
    exact ⟨max_eq_left (mul_nonneg hburst.le hpos.le), max_eq_left (mul_nonneg hrate.le hpos.le),
      rfl⟩

lemma start_biased (localId pending began) (hvalid : validateMeshRelay config = .ok ()) :
    Biased config (start localId config pending began) := by
  obtain ⟨hburst, hrate, -⟩ := validateMeshRelay_dials hvalid
  have hscale : (start localId config pending began).governor.biasScale = 1 := rfl
  refine ⟨?_, ?_, rfl⟩
  · rw [hscale, mul_one]
    exact max_eq_left hburst.le
  · rw [hscale, mul_one]
    exact max_eq_left hrate.le

lemma Biased.forwards_iff (hbias : Biased config w)
    (hmet : Metered config.burst config.ratePerSec w) (hvalid : validateMeshRelay config = .ok ())
    (hnow : w.clock ≤ now) (hfull : w.governor.Refilled now) (hpending : w.governor.pending = [])
    (hfirst : w.governor.FirstHeard message peer now) :
    w.governor.Forwards host message peer degree now ↔ w.governor.Sufficient degree := by
  have hdial : w.governor.Dialled now := by
    refine ⟨hmet.sane.later hnow, ?_, hmet.forward.later hnow, ?_, ?_⟩
    · rw [hmet.capacity, hbias.config]
    · rw [hbias.capacity, hbias.config]
    · rw [hmet.reserve, hbias.config]
  exact hdial.forwards_iff hfull hpending (hbias.config ▸ hvalid) hfirst

/-- After any calls, changes of the conditions among them, both meters fill when
they are left alone. Once they have, with nothing queued, a frame heard for the
first time is forwarded exactly when the hop ceiling, the neighbor's bucket and
both meters suffice. -/
theorem idle_forwards_iff (localId : String) (config : MeshRelayConfig ℚ)
    (hvalid : validateMeshRelay config = .ok ()) (pending : List PendingRelay) (began : ℕ)
    (ops : List (ℕ × AirOp)) :
    let w := (runSteps step (start localId config pending began) ops).1
    (∃ wait, ∀ now, w.clock + wait ≤ now → w.governor.Refilled now) ∧
    ∀ now ≥ w.clock, w.governor.Refilled now → w.governor.pending = [] →
      ∀ host message peer degree, w.governor.FirstHeard message peer now →
        (w.governor.Forwards host message peer degree now ↔ w.governor.Sufficient degree) := by
  intro w
  obtain ⟨hburst, hrate, hscale⟩ := validateMeshRelay_dials hvalid
  have hmet : Metered config.burst config.ratePerSec w :=
    runSteps_preserves (fun w a h => h.step a) ops
      (start_metered localId hburst.le hrate.le pending began)
  have hbias : Biased config w :=
    runSteps_preserves (fun w a h => h.step hvalid a) ops
      (start_biased localId pending began hvalid)
  constructor
  · have hpos := biasScale_pos (g := w.governor) (hbias.config ▸ hscale)
    obtain ⟨wait, hsend⟩ := hmet.sane.level_waited (hmet.rate ▸ hrate)
    obtain ⟨wait', hforward⟩ := hmet.forward.level_waited (hbias.rate ▸ mul_pos hrate hpos)
    exact ⟨max wait wait', fun now hnow => ⟨hsend now (by omega), hforward now (by omega)⟩⟩
  · intro now hnow hfull hpending host message peer degree hfirst
    exact hbias.forwards_iff hmet hvalid hnow hfull hpending hfirst

lemma start_forwards_iff (hvalid : validateMeshRelay config = .ok ()) :
    Forwards host (withConfig "a" config 0) firstHeardMessage "s" degree 0 ↔
      Sufficient (withConfig "a" config 0) degree := by
  obtain ⟨hburst, hrate, -⟩ := validateMeshRelay_dials hvalid
  have hfull (b : TokenBucket ℚ) (hlast : b.lastRefill = 0) : b.level 0 = b.tokens :=
    congrArg tokens (refill_self hlast)
  exact (start_biased "a" [] 0 hvalid).forwards_iff (start_metered "a" hburst.le hrate.le [] 0)
    hvalid le_rfl ⟨hfull _ rfl, hfull _ rfl⟩ rfl ⟨rfl, rfl, by decide, by simp [start, withConfig]⟩

/-- A frame of the device's own, then a battery below its floor. -/
def batteryDrops : List (ℕ × AirOp) :=
  [(0, .takeOwnSendToken), (5, .setConditions
    { battery := some 10, isCharging := false, eager := false, softFloor := 20 })]

theorem idle_forwards_iff_battery :
    ∃ wait, ∀ now, 5 + wait ≤ now →
      (runSteps step (start "a" .default [] 0) batteryDrops).1.governor.Forwards
        MeshRelayGovernor.plainHost firstHeardMessage "s" 1 now := by
  have hvalid : validateMeshRelay MeshRelayConfig.default = .ok () := by
    rw [validateMeshRelay_ok]
    norm_num [meshRelayChecks, MeshRelayConfig.default, ofCount, relayQueueMaxOverdue]
    decide
  obtain ⟨⟨wait, hwait⟩, hiff⟩ := idle_forwards_iff "a" .default hvalid [] 0 batteryDrops
  refine ⟨wait, fun now hnow => ?_⟩
  refine (hiff now (le_of_add_le_left hnow) (hwait now hnow) rfl _ firstHeardMessage "s" 1
    ⟨rfl, rfl, by decide, ?_⟩).2 ⟨by decide, ?_, ?_, ?_⟩
  all_goals
    norm_num [batteryDrops, runSteps, step, start, setConditions, takeOwnSendToken, withConfig,
      MeshRelayConfig.default, ofCount, biasScale, clamp01]

end AirRun

namespace MeshRelayGovernor

/-- A hop ceiling of one is accepted and lets nothing through, and so is a burst
of less than two frames. -/
theorem accepted_config_stops_forwarding :
    (validateMeshRelay { MeshRelayConfig.default with maxTtl := 1 } = .ok () ∧
      ¬Forwards plainHost (withConfig "a" { MeshRelayConfig.default with maxTtl := 1 } 0)
        firstHeardMessage "s" 1 0) ∧
    validateMeshRelay { MeshRelayConfig.default with burst := 3 / 2 } = .ok () ∧
      ¬Forwards plainHost (withConfig "a" { MeshRelayConfig.default with burst := 3 / 2 } 0)
        firstHeardMessage "s" 1 0 := by
  have hceil : validateMeshRelay { MeshRelayConfig.default with maxTtl := 1 } = .ok () := by
    rw [validateMeshRelay_ok]
    norm_num [meshRelayChecks, MeshRelayConfig.default, ofCount, relayQueueMaxOverdue]
    decide
  have hburst : validateMeshRelay { MeshRelayConfig.default with burst := 3 / 2 } = .ok () := by
    rw [validateMeshRelay_ok]
    norm_num [meshRelayChecks, MeshRelayConfig.default, ofCount, relayQueueMaxOverdue]
    decide
  refine ⟨⟨hceil, fun h => ?_⟩, hburst, fun h => ?_⟩
  · have hsufficient := (AirRun.start_forwards_iff hceil).1 h
    exact absurd hsufficient.ceiling (by decide)
  · have hsufficient := (AirRun.start_forwards_iff hburst).1 h
    have := hsufficient.burst
    norm_num [withConfig] at this

end MeshRelayGovernor

end OfflineProtocol
