import OfflineProtocol.EventTrace
import OfflineProtocol.RelayGovernor
import Mathlib.Algebra.Order.Ring.Rat
import Mathlib.Tactic.Linarith

/-! How much a device may transmit. Over exact arithmetic the shared meter is a
potential: what it holds, and what it can gain, pays for every transmission. -/
namespace OfflineProtocol
open EventTrace AirArith

namespace TokenBucket

def level (b : TokenBucket ℚ) (t : ℕ) : ℚ := (b.refill t).tokens

structure Sane (b : TokenBucket ℚ) (now : ℕ) : Prop where
  nonneg : 0 ≤ b.tokens
  full : b.tokens ≤ b.capacity
  rate : 0 ≤ b.refillPerSec
  behind : b.lastRefill ≤ now

variable {b : TokenBucket ℚ} {now t : ℕ}

lemma seconds_nonneg (n) : (0 : ℚ) ≤ seconds n :=
  div_nonneg (Nat.cast_nonneg n) (by norm_num)

lemma seconds_add (m n) : (seconds (m + n) : ℚ) = seconds m + seconds n := by
  simp only [seconds, Nat.cast_add, add_div]

lemma level_eq (h : b.tokens ≤ b.capacity) (t) :
    b.level t = min (b.tokens + seconds (t - b.lastRefill) * b.refillPerSec) b.capacity := by
  simp only [level, refill, ltB]
  by_cases hpos : (0 : ℚ) < seconds (t - b.lastRefill)
  · rw [if_pos (decide_eq_true hpos)]
  have hzero : (seconds (t - b.lastRefill) : ℚ) = 0 :=
    le_antisymm (not_lt.1 hpos) (seconds_nonneg _)
  rw [if_neg (by simpa using hpos), hzero, zero_mul, add_zero, min_eq_left h]

lemma refill_fields (b : TokenBucket ℚ) (now) :
    (b.refill now).capacity = b.capacity ∧ (b.refill now).refillPerSec = b.refillPerSec := by
  unfold refill
  dsimp only
  split_ifs <;> exact ⟨rfl, rfl⟩

lemma refill_last (h : b.lastRefill ≤ now) : (b.refill now).lastRefill = now := by
  simp only [refill, ltB]
  by_cases hpos : (0 : ℚ) < seconds (now - b.lastRefill)
  · rw [if_pos (decide_eq_true hpos)]
  rw [if_neg (by simpa using hpos)]
  have hzero : now - b.lastRefill = 0 := by
    by_contra hne
    apply hpos
    exact div_pos (Nat.cast_pos.2 (Nat.pos_of_ne_zero hne)) (by norm_num)
  omega

lemma level_le (h : b.tokens ≤ b.capacity) (t) : b.level t ≤ b.capacity := by
  rw [level_eq h]
  exact min_le_right _ _

section
variable (h : b.Sane now)
include h

lemma Sane.level_nonneg : 0 ≤ b.level t := by
  rw [level_eq h.full]
  refine le_min ?_ (h.nonneg.trans h.full)
  exact add_nonneg h.nonneg (mul_nonneg (seconds_nonneg _) h.rate)

lemma Sane.refill : (b.refill now).Sane now where
  nonneg := h.level_nonneg
  full := (refill_fields b now).1 ▸ level_le h.full now
  rate := (refill_fields b now).2 ▸ h.rate
  behind := (refill_last h.behind).le

lemma Sane.later (hle : now ≤ t) : b.Sane t :=
  ⟨h.nonneg, h.full, h.rate, h.behind.trans hle⟩

lemma Sane.level_refill (hle : now ≤ t) : (b.refill now).level t = b.level t := by
  have hspan : (seconds (t - b.lastRefill) : ℚ) =
      seconds (now - b.lastRefill) + seconds (t - now) := by
    rw [← seconds_add]
    congr 1
    have := h.behind
    omega
  have hgain : 0 ≤ seconds (t - now) * b.refillPerSec :=
    mul_nonneg (seconds_nonneg _) h.rate
  rw [level_eq h.refill.full, level_eq h.full, refill_last h.behind, (refill_fields b now).1,
    (refill_fields b now).2, ← level, level_eq h.full, hspan, add_mul, ← add_assoc]
  rcases le_total (b.tokens + seconds (now - b.lastRefill) * b.refillPerSec) b.capacity
    with hroom | hfull
  · rw [min_eq_left hroom]
  · rw [min_eq_right hfull, min_eq_right (by linarith), min_eq_right (by linarith)]

lemma Sane.level_rise (hle : now ≤ t) (hlater : t ≤ t') :
    b.level t' ≤ b.level t + b.refillPerSec * seconds (t' - t) := by
  have href := (h.later hle).level_refill hlater
  rw [← href, level_eq (h.later hle).refill.full, refill_last (h.later hle).behind,
    (refill_fields b t).2]
  refine (min_le_left _ _).trans ?_
  rw [mul_comm]
  exact le_rfl

end

def taken (b : TokenBucket ℚ) : TokenBucket ℚ := { b with tokens := b.tokens - 1 }

lemma spend_eq (hone : 1 ≤ b.tokens) : b.spend = b.taken := by
  unfold spend taken
  rw [max_eq_left (sub_nonneg.2 hone)]

lemma Sane.taken (h : b.Sane now) (hone : 1 ≤ b.tokens) : b.taken.Sane now where
  nonneg := by
    unfold TokenBucket.taken
    linarith
  full := by
    have := h.full
    unfold TokenBucket.taken
    linarith
  rate := h.rate
  behind := h.behind

lemma Sane.level_taken (h : b.Sane now) (hone : 1 ≤ b.tokens) (t) :
    b.taken.level t ≤ b.level t := by
  rw [level_eq (h.taken hone).full, level_eq h.full]
  refine min_le_min ?_ le_rfl
  unfold TokenBucket.taken
  linarith

lemma refill_self (h : b.lastRefill = now) : b.refill now = b := by
  simp [refill, h, seconds, ltB]

end TokenBucket

namespace MeshRelayGovernor
open TokenBucket
variable {g g' : MeshRelayGovernor ℚ} {now t : ℕ}
variable {b : TokenBucket ℚ}

structure Even (b b' : TokenBucket ℚ) (now : ℕ) : Prop where
  sane : b'.Sane now
  capacity : b'.capacity = b.capacity
  rate : b'.refillPerSec = b.refillPerSec
  level : ∀ t ≥ now, b'.level t = b.level t

lemma Even.trans (h : Even b b' now) (h' : Even b' b'' now) : Even b b'' now :=
  ⟨h'.sane, h'.capacity.trans h.capacity, h'.rate.trans h.rate,
    fun t ht => (h'.level t ht).trans (h.level t ht)⟩

lemma even_refl (h : b.Sane now) : Even b b now := ⟨h, rfl, rfl, fun _ _ => rfl⟩

lemma even_refill (h : b.Sane now) : Even b (b.refill now) now :=
  ⟨h.refill, (refill_fields b now).1, (refill_fields b now).2, fun _ ht => h.level_refill ht⟩

structure Looks (g g' : MeshRelayGovernor ℚ) (now : ℕ) : Prop where
  send : Even g.sendBudget g'.sendBudget now
  forward : Even g.forwardBudget g'.forwardBudget now
  reserve : g'.ownReserve = g.ownReserve

lemma hasSendBudget_looks (hsend : g.sendBudget.Sane now) (hforward : g.forwardBudget.Sane now) :
    Looks g (g.hasSendBudget now).1 now := by
  unfold hasSendBudget
  dsimp
  split_ifs
  · exact ⟨even_refill hsend, even_refill hforward, rfl⟩
  · exact ⟨even_refill hsend, even_refl hforward, rfl⟩

lemma hasSendBudget_true (h : (g.hasSendBudget now).2 = true) :
    1 + g.ownReserve ≤ g.sendBudget.level now ∧ 1 ≤ g.forwardBudget.level now ∧
      (g.hasSendBudget now).1.sendBudget = g.sendBudget.refill now ∧
      (g.hasSendBudget now).1.forwardBudget = g.forwardBudget.refill now := by
  unfold hasSendBudget at h ⊢
  dsimp only [hasAbove] at h ⊢
  split_ifs at h ⊢ with hsend
  simp only [leB, decide_eq_true_eq, add_zero] at hsend h
  exact ⟨hsend, h, rfl, rfl⟩

lemma releaseLoop_looks (relays) (g : MeshRelayGovernor ℚ)
    (hsend : g.sendBudget.Sane now) (hforward : g.forwardBudget.Sane now) :
    Looks g (releaseLoop now g relays).governor now := by
  induction relays generalizing g with
  | nil => exact ⟨even_refl hsend, even_refl hforward, rfl⟩
  | cons relay relays ih =>
    unfold releaseLoop
    split_ifs
    · exact ih g hsend hforward
    · have hrest := ih { g with seen := g.seen.forget relay.message.id } hsend hforward
      exact ⟨hrest.send, hrest.forward, hrest.reserve⟩
    · exact ih g hsend hforward
    have hlooks := hasSendBudget_looks hsend hforward
    have hrest := ih (g.hasSendBudget now).1 hlooks.send.sane hlooks.forward.sane
    have hboth : Looks g (releaseLoop now (g.hasSendBudget now).1 relays).governor now :=
      ⟨hlooks.send.trans hrest.send, hlooks.forward.trans hrest.forward,
        hrest.reserve.trans hlooks.reserve⟩
    dsimp only
    split_ifs
    · exact hboth
    · exact hboth

lemma resize_sane (h : b.Sane now) (capacity rate) : (b.resize capacity rate now).Sane now ∧
      (b.resize capacity rate now).level now ≤ b.level now := by
  have hlast : (b.resize capacity rate now).lastRefill = now := refill_last h.behind
  refine ⟨⟨le_min h.refill.nonneg (le_max_right _ _), min_le_right _ _, le_max_right _ _, hlast.le⟩,
    ?_⟩
  rw [level, refill_self hlast]
  exact min_le_left _ _

end MeshRelayGovernor

inductive AirOp
  | takeSendToken
  | takeOwnSendToken
  | releaseDue
  | setConditions (conditions : RelayConditions)

structure AirRun where
  clock : ℕ
  governor : MeshRelayGovernor ℚ

structure Transmission where
  at_ : ℕ
  forwarded : Bool

namespace AirRun
open TokenBucket MeshRelayGovernor

def step (w : AirRun) (a : ℕ × AirOp) : AirRun × List Transmission :=
  let now := w.clock + a.1
  match a.2 with
  | .takeSendToken =>
    let r := w.governor.takeSendToken now
    (⟨now, r.1⟩, if r.2 then [⟨now, true⟩] else [])
  | .takeOwnSendToken =>
    let r := w.governor.takeOwnSendToken now
    (⟨now, r.1⟩, if r.2 then [⟨now, false⟩] else [])
  | .releaseDue => (⟨now, (w.governor.releaseDue now).1⟩, [])
  | .setConditions conditions => (⟨now, w.governor.setConditions conditions now⟩, [])

/-- All that a call can do to the shared meter: nothing that counts, or a token
for a transmission, which a forward takes from above the reserve. -/
inductive Meters (b b' : TokenBucket ℚ) (reserve : ℚ) (now : ℕ) : List Transmission → Prop
  | looked (h : Even b b' now) : Meters b b' reserve now []
  | took (forwarded : Bool) (hone : 1 ≤ b.level now)
      (habove : forwarded = true → 1 + reserve ≤ b.level now)
      (h : b' = (b.refill now).taken) : Meters b b' reserve now [⟨now, forwarded⟩]

variable {w : AirRun} {B R : ℚ}

structure Metered (B R : ℚ) (w : AirRun) : Prop where
  sane : w.governor.sendBudget.Sane w.clock
  forward : w.governor.forwardBudget.Sane w.clock
  capacity : w.governor.sendBudget.capacity = B
  rate : w.governor.sendBudget.refillPerSec = R
  reserve : w.governor.ownReserve = min 5 (B / 2)

lemma Metered.reserve_nonneg (h : Metered B R w) : 0 ≤ w.governor.ownReserve := by
  have hcap := h.sane.nonneg.trans h.sane.full
  rw [h.capacity] at hcap
  rw [h.reserve]
  exact le_min (by norm_num) (by linarith)

lemma Metered.later (h : Metered B R w) (elapsed) : Metered B R ⟨w.clock + elapsed, w.governor⟩ :=
  ⟨h.sane.later (Nat.le_add_right _ _), h.forward.later (Nat.le_add_right _ _), h.capacity, h.rate,
    h.reserve⟩

lemma step_meters (h : Metered B R w) (a : ℕ × AirOp) :
    Meters w.governor.sendBudget (w.step a).1.governor.sendBudget w.governor.ownReserve
        (w.clock + a.1) (w.step a).2 ∧
      (w.step a).1.governor.forwardBudget.Sane (w.clock + a.1) ∧
      (w.step a).1.governor.ownReserve = w.governor.ownReserve ∧
      (w.step a).1.clock = w.clock + a.1 := by
  obtain ⟨elapsed, op⟩ := a
  have hres := h.reserve_nonneg
  have hnow := h.later elapsed
  cases op with
  | takeSendToken =>
    have hlooks := hasSendBudget_looks hnow.sane hnow.forward
    by_cases hbudget : (w.governor.hasSendBudget (w.clock + elapsed)).2 = true
    · obtain ⟨habove, hforward, hsend, href⟩ := hasSendBudget_true hbudget
      have hone : 1 ≤ w.governor.sendBudget.level (w.clock + elapsed) := by linarith
      simp only [step, takeSendToken, if_pos hbudget, if_true]
      refine ⟨.took true hone (fun _ => habove) ?_, ?_, hlooks.reserve, trivial⟩
      · rw [hsend, spend_eq hone]
      rw [href, spend_eq hforward]
      exact hnow.forward.refill.taken hforward
    · simp only [step, takeSendToken, if_neg hbudget, Bool.false_eq_true, if_false]
      exact ⟨.looked hlooks.send, hlooks.forward.sane, hlooks.reserve, trivial⟩
  | takeOwnSendToken =>
    by_cases hbudget : 1 ≤ w.governor.sendBudget.level (w.clock + elapsed)
    · have htook : w.governor.sendBudget.tryTakeAbove 0 (w.clock + elapsed) =
          ((w.governor.sendBudget.refill (w.clock + elapsed)).taken, true) := by
        simp only [tryTakeAbove, leB, add_zero]
        exact if_pos (decide_eq_true hbudget)
      simp only [step, takeOwnSendToken, htook, if_true]
      exact ⟨.took false hbudget (fun h => absurd h Bool.false_ne_true) rfl, hnow.forward, trivial,
        trivial⟩
    · have hleft : w.governor.sendBudget.tryTakeAbove 0 (w.clock + elapsed) =
          (w.governor.sendBudget.refill (w.clock + elapsed), false) := by
        simp only [tryTakeAbove, leB, add_zero]
        exact if_neg (fun h => hbudget (of_decide_eq_true h))
      simp only [step, takeOwnSendToken, hleft, Bool.false_eq_true, if_false]
      exact ⟨.looked (even_refill hnow.sane), hnow.forward, trivial, trivial⟩
  | releaseDue =>
    have hlooks := releaseLoop_looks w.governor.pending
      { w.governor with seen := w.governor.seen.expire (w.clock + elapsed), pending := [] }
      hnow.sane hnow.forward
    exact ⟨.looked hlooks.send, hlooks.forward.sane, hlooks.reserve, rfl⟩
  | setConditions conditions =>
    exact ⟨.looked (even_refl hnow.sane), (resize_sane hnow.forward _ _).1, rfl, rfl⟩

lemma Metered.step (h : Metered B R w) (a) : Metered B R (w.step a).1 := by
  have hsane := (h.later a.1).sane
  obtain ⟨hmet, hforward, hkept, hclock⟩ := step_meters h a
  have hmeter : (w.step a).1.governor.sendBudget.Sane (w.clock + a.1) ∧
      (w.step a).1.governor.sendBudget.capacity = B ∧
      (w.step a).1.governor.sendBudget.refillPerSec = R := by
    generalize (w.step a).2 = es at hmet
    cases hmet with
    | looked heven =>
      exact ⟨heven.sane, heven.capacity.trans h.capacity, heven.rate.trans h.rate⟩
    | took forwarded hone habove htaken =>
      rw [htaken]
      exact ⟨hsane.refill.taken hone, (refill_fields _ _).1.trans h.capacity,
        (refill_fields _ _).2.trans h.rate⟩
  rw [← hclock] at hmeter hforward
  exact ⟨hmeter.1, hforward, hmeter.2.1, hmeter.2.2, hkept.trans h.reserve⟩

def inWindow (t₀ t₁ : ℕ) (all : Bool) (e : Transmission) : Bool :=
  decide (t₀ ≤ e.at_) && decide (e.at_ ≤ t₁) && (all || e.forwarded)

/-- What the shared meter can still pay for: all of it, or what lies above the
reserve for forwards. -/
def potential (w : AirRun) (all : Bool) (t : ℕ) : ℚ :=
  if all then w.governor.sendBudget.level t
  else max (w.governor.sendBudget.level t - w.governor.ownReserve) 0

lemma Metered.potential_nonneg (h : Metered B R w) : 0 ≤ w.potential all t := by
  cases all with
  | true => exact h.sane.level_nonneg
  | false => exact le_max_right _ _

lemma Metered.potential_rise (h : Metered B R w) (all) (hle : w.clock ≤ t)
    (hlater : t ≤ t') : w.potential all t' ≤ w.potential all t + R * seconds (t' - t) := by
  have hrise := h.sane.level_rise hle hlater
  rw [h.rate] at hrise
  have hgain : 0 ≤ R * seconds (t' - t) :=
    mul_nonneg (h.rate ▸ h.sane.rate) (seconds_nonneg _)
  cases all with
  | true => exact hrise
  | false =>
    simp only [potential, Bool.false_eq_true, if_false]
    refine max_le ?_ ?_
    · have := le_max_left (w.governor.sendBudget.level t - w.governor.ownReserve) 0
      linarith
    have := le_max_right (w.governor.sendBudget.level t - w.governor.ownReserve) 0
    linarith

/-- A step pays for what it transmits out of the potential, now and at any
later time. -/
lemma Metered.step_pays (h : Metered B R w) (a : ℕ × AirOp) (all) (ht : w.clock + a.1 ≤ t) :
    (w.step a).1.potential all t + (if t = w.clock + a.1 then
      ((w.step a).2.countP fun e => all || e.forwarded : ℚ) else 0) ≤ w.potential all t ∧
      ∀ e ∈ (w.step a).2, e.at_ = w.clock + a.1 := by
  have hsane := (h.later a.1).sane
  obtain ⟨hmet, -, hkept, -⟩ := step_meters h a
  unfold potential
  rw [hkept]
  generalize (w.step a).2 = es at hmet
  generalize (w.step a).1.governor.sendBudget = b' at hmet
  cases hmet with
  | looked heven =>
    rw [heven.level t ht]
    exact ⟨by simp, nofun⟩
  | took forwarded hone habove htaken =>
    refine ⟨?_, fun e he => by rw [List.mem_singleton.1 he]⟩
    have hless := hsane.refill.level_taken hone t
    rw [hsane.level_refill ht, ← htaken] at hless
    have hexact : t = w.clock + a.1 → b'.level t = w.governor.sendBudget.level t - 1 := by
      rintro rfl
      have hlast : (w.governor.sendBudget.refill (w.clock + a.1)).taken.lastRefill =
          w.clock + a.1 := refill_last hsane.behind
      rw [htaken, level, refill_self hlast]
      rfl
    cases all with
    | true =>
      simp only [if_true]
      split_ifs with hnow
      · rw [hexact hnow]
        simp
      rw [add_zero]
      exact hless
    | false =>
      have hdown : max (b'.level t - w.governor.ownReserve) 0 ≤
          max (w.governor.sendBudget.level t - w.governor.ownReserve) 0 :=
        max_le_max (sub_le_sub_right hless _) le_rfl
      cases forwarded with
      | false => simpa using hdown
      | true =>
        simp only [Bool.false_eq_true, if_false]
        split_ifs with hnow
        · have hpaid := habove rfl
          rw [← hnow] at hpaid
          rw [hexact hnow, max_eq_left (by linarith), max_eq_left (by linarith)]
          simp
          linarith
        · rw [add_zero]
          exact hdown

def allowance (w : AirRun) (R : ℚ) (all : Bool) (t₀ t₁ : ℕ) : ℚ :=
  if max w.clock t₀ ≤ t₁ then w.potential all (max w.clock t₀) +
    R * seconds (t₁ - max w.clock t₀) else 0

lemma Metered.allowance_nonneg (h : Metered B R w) (all t₀ t₁) : 0 ≤ w.allowance R all t₀ t₁ := by
  unfold allowance
  split_ifs
  · exact add_nonneg h.potential_nonneg
      (mul_nonneg (h.rate ▸ h.sane.rate) (seconds_nonneg _))
  · exact le_rfl

/-- What a run transmits in a window is paid for by the window's allowance. -/
lemma Metered.window (h : Metered B R w) {all t₀ t₁ ops} :
    ((runSteps AirRun.step w ops).2.countP (inWindow t₀ t₁ all) : ℚ) ≤ w.allowance R all t₀ t₁ := by
  induction ops generalizing w with
  | nil => simpa only [runSteps, List.countP_nil, Nat.cast_zero] using h.allowance_nonneg all t₀ t₁
  | cons a ops ih =>
    have hrest := ih (h.step a)
    have hclock : (w.step a).1.clock = w.clock + a.1 := (step_meters h a).2.2.2
    rw [runSteps, List.countP_append, Nat.cast_add]
    rw [allowance, hclock] at hrest
    obtain ⟨hpaid, htimes⟩ := h.step_pays a all (le_max_left (w.clock + a.1) t₀)
    -- the transmissions of this step are in the window together, or not at all
    have hcount : ((w.step a).2.countP (inWindow t₀ t₁ all) : ℚ) ≤
        if max (w.clock + a.1) t₀ ≤ t₁ then if max (w.clock + a.1) t₀ = w.clock + a.1 then
          ((w.step a).2.countP fun e => all || e.forwarded : ℚ) else 0 else 0 := by
      rw [← ite_and]
      split_ifs with hin
      · refine Nat.cast_le.2 (List.countP_mono_left fun e _ he => ?_)
        simp only [inWindow, Bool.and_eq_true] at he
        exact he.2
      refine le_of_eq (Nat.cast_eq_zero.2 (List.countP_eq_zero.2 fun e he hwindow => hin ?_))
      simp only [inWindow, Bool.and_eq_true, decide_eq_true_eq, htimes e he] at hwindow
      omega
    by_cases hlater : max (w.clock + a.1) t₀ ≤ t₁
    · have hearlier : max w.clock t₀ ≤ max (w.clock + a.1) t₀ := by omega
      have hrise := h.potential_rise all (le_max_left w.clock t₀) hearlier
      rw [if_pos hlater] at hrest hcount
      rw [allowance, if_pos (hearlier.trans hlater)]
      have hspan : (seconds (t₁ - max w.clock t₀) : ℚ) =
          seconds (max (w.clock + a.1) t₀ - max w.clock t₀) +
            seconds (t₁ - max (w.clock + a.1) t₀) := by
        rw [← seconds_add]
        congr 1
        omega
      rw [hspan, mul_add]
      linarith
    · rw [if_neg hlater] at hrest hcount
      have := h.allowance_nonneg all t₀ t₁
      linarith

lemma setConditions_levels (changes : List RelayConditions) {g : MeshRelayGovernor ℚ} {now}
    (h : g.forwardBudget.Sane now) :
    (changes.foldl (fun g conditions => g.setConditions conditions now) g).sendBudget =
        g.sendBudget ∧
      (changes.foldl (fun g conditions => g.setConditions conditions now) g).forwardBudget.level
        now ≤ g.forwardBudget.level now := by
  induction changes generalizing g with
  | nil => exact ⟨rfl, le_rfl⟩
  | cons conditions changes ih =>
    obtain ⟨hsane, hless⟩ := resize_sane h
      (g.config.burst * ({ g with conditions := conditions } : MeshRelayGovernor ℚ).biasScale)
      (g.config.ratePerSec * ({ g with conditions := conditions } : MeshRelayGovernor ℚ).biasScale)
    obtain ⟨hsend, hforward⟩ := ih (g := g.setConditions conditions now) hsane
    exact ⟨hsend, hforward.trans hless⟩

def start (localId : String) (config : MeshRelayConfig ℚ) (pending : List PendingRelay)
    (now : ℕ) : AirRun :=
  ⟨now, { withConfig localId config now with pending := pending }⟩

lemma start_metered (localId) {config} (hB : 0 ≤ config.burst)
    (hR : 0 ≤ config.ratePerSec) (pending now) :
    Metered config.burst config.ratePerSec (start localId config pending now) where
  sane := ⟨le_max_right _ _, le_rfl, le_max_right _ _, le_rfl⟩
  forward := ⟨le_max_right _ _, le_rfl, le_max_right _ _, le_rfl⟩
  capacity := max_eq_left hB
  rate := max_eq_left hR
  reserve := by
    simp only [start, withConfig, max_eq_left hB, relayOwnTrafficReserve, ofCount]
    norm_num

lemma Metered.ceiling (h : Metered B R w) (all t₀ t₁ ops) :
    ((runSteps AirRun.step w ops).2.countP (inWindow t₀ t₁ all) : ℚ) ≤
      (if all then B else B - min 5 (B / 2)) + R * seconds (t₁ - t₀) := by
  have hcap : 0 ≤ B := h.capacity ▸ h.sane.nonneg.trans h.sane.full
  have hres : min 5 (B / 2) ≤ B := (min_le_right _ _).trans (by linarith)
  have hrate : 0 ≤ R := h.rate ▸ h.sane.rate
  have hfull : w.potential all (max w.clock t₀) ≤ if all then B else B - min 5 (B / 2) := by
    have hlevel := level_le h.sane.full (max w.clock t₀)
    rw [h.capacity] at hlevel
    cases all with
    | true => exact hlevel
    | false =>
      simp only [potential, h.reserve, Bool.false_eq_true, if_false]
      exact max_le (by linarith) (by linarith)
  have hspan : (seconds (t₁ - max w.clock t₀) : ℚ) ≤ seconds (t₁ - t₀) := by
    apply div_le_div_of_nonneg_right _ (by norm_num)
    exact Nat.cast_le.2 (by omega)
  refine (h.window).trans ?_
  unfold allowance
  have hgain := mul_le_mul_of_nonneg_left hspan hrate
  by_cases hin : max w.clock t₀ ≤ t₁
  · rw [if_pos hin]
    linarith
  rw [if_neg hin]
  have hpot := (h.potential_nonneg).trans hfull
  have hnon := mul_nonneg hrate (seconds_nonneg (t₁ - t₀))
  linarith

/-- The airtime ceiling over any window of any run, the forwards' share of it,
that a refused forward costs nothing, and that conditions mint no tokens. -/
theorem airtime_ceiling (localId : String) (config : MeshRelayConfig ℚ) (hB : 0 ≤ config.burst)
    (hR : 0 ≤ config.ratePerSec) (pending : List PendingRelay) (began : ℕ)
    (ops : List (ℕ × AirOp)) :
    let run := runSteps step (start localId config pending began) ops
    (∀ t₀ t₁, (run.2.countP (inWindow t₀ t₁ true) : ℚ) ≤
        config.burst + config.ratePerSec * seconds (t₁ - t₀) ∧
      (run.2.countP (inWindow t₀ t₁ false) : ℚ) ≤
        config.burst - min 5 (config.burst / 2) + config.ratePerSec * seconds (t₁ - t₀)) ∧
    ∀ now ≥ run.1.clock, ((run.1.governor.takeSendToken now).2 = false → ∀ t ≥ now,
        (run.1.governor.takeSendToken now).1.sendBudget.level t =
          run.1.governor.sendBudget.level t ∧
        (run.1.governor.takeSendToken now).1.forwardBudget.level t =
          run.1.governor.forwardBudget.level t) ∧
      ∀ changes : List RelayConditions,
        let g := changes.foldl (fun g conditions => g.setConditions conditions now) run.1.governor
        g.sendBudget.level now = run.1.governor.sendBudget.level now ∧
          g.forwardBudget.level now ≤ run.1.governor.forwardBudget.level now := by
  have hstart := start_metered localId hB hR pending began
  have hrun : Metered config.burst config.ratePerSec
      (runSteps step (start localId config pending began) ops).1 :=
    runSteps_preserves (fun w a h => h.step a) ops hstart
  refine ⟨fun t₀ t₁ => ⟨?_, ?_⟩, fun now hnow => ⟨?_, ?_⟩⟩
  · exact hstart.ceiling true t₀ t₁ ops
  · exact hstart.ceiling false t₀ t₁ ops
  · intro hfailed t ht
    have hlooks := hasSendBudget_looks (hrun.sane.later hnow) (hrun.forward.later hnow)
    simp only [takeSendToken] at hfailed ⊢
    split_ifs at hfailed ⊢
    · exact ⟨hlooks.send.level t ht, hlooks.forward.level t ht⟩
  · intro changes
    obtain ⟨hsend, hforward⟩ := setConditions_levels changes (hrun.forward.later hnow)
    exact ⟨congrArg (level · now) hsend, hforward⟩

/-- A forward, a battery at its floor, and more forwards than the smaller meter holds. -/
def lowOnBattery : List (ℕ × AirOp) :=
  (0, .takeSendToken) :: (5, .setConditions ⟨some 10, false, false, 20⟩) ::
    List.replicate 8 (0, .takeSendToken)

theorem airtime_ceiling_battery :
    let run := runSteps step (start "a" MeshRelayConfig.default [] 0) lowOnBattery
    run.2.length = 8 ∧ (run.2.countP (inWindow 0 5 true) : ℚ) ≤ 30 + 10 * seconds (5 - 0) ∧
      (run.1.governor.takeSendToken 5).2 = false ∧
      (run.1.governor.takeSendToken 5).1.forwardBudget.level 5 =
        run.1.governor.forwardBudget.level 5 := by
  intro run
  have hdials : (0 : ℚ) ≤ MeshRelayConfig.default.burst ∧
      (0 : ℚ) ≤ MeshRelayConfig.default.ratePerSec := by
    norm_num [MeshRelayConfig.default, ofCount]
  obtain ⟨hceiling, hrefused⟩ :=
    airtime_ceiling "a" MeshRelayConfig.default hdials.1 hdials.2 [] 0 lowOnBattery
  have hspent : (run.1.governor.takeSendToken 5).2 = false := by decide +kernel
  exact ⟨by decide +kernel, (hceiling 0 5).1, hspent,
    ((hrefused 5 (by decide +kernel)).1 hspent 5 le_rfl).2⟩

end AirRun

end OfflineProtocol
