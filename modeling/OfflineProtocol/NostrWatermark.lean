import OfflineProtocol.EventTrace
import Mathlib.Algebra.Order.Ring.Int
import Mathlib.Tactic.SplitIfs

/-! The receive watermark of the Nostr transport: how far back the next
subscription asks a relay to reach, against events anyone may date. -/
namespace OfflineProtocol
open EventTrace Option

def nostrCreatedAtJitterSecs : ℤ := 3600

def nostrClockSkewMarginSecs : ℤ := 300

def nostrFirstRunBackfillSecs : ℤ := 86400

def nostrFutureDatedToleranceSecs : ℤ := 900

def nostrWatermarkPersistIntervalSecs : ℤ := 300

structure NostrReceiver where
  clock : ℤ
  receiveWatermark : Option ℤ
  lastPersistedNostrWatermark : Option ℤ
  /-- The record in protocol-state storage, which a restart keeps. -/
  stored : Option ℤ
  /-- Since when no subscription is open. Nothing reads it. -/
  closedSince : Option ℤ

namespace NostrReceiver

def new (clock : ℕ) : NostrReceiver := ⟨clock, none, none, none, some clock⟩

variable (s : NostrReceiver)

def advanceReceiveWatermark (createdAtSecs : ℤ) : NostrReceiver × Bool :=
  if createdAtSecs ≤ 0 then (s, false)
  else if s.clock + nostrFutureDatedToleranceSecs < createdAtSecs then (s, false)
  else match s.receiveWatermark with
    | some current =>
      if createdAtSecs ≤ current then (s, false)
      else ({ s with receiveWatermark := some createdAtSecs }, true)
    | none => ({ s with receiveWatermark := some createdAtSecs }, true)

def subscriptionSince : ℤ :=
  match s.receiveWatermark with
  | some mark => max (min mark s.clock - nostrCreatedAtJitterSecs - nostrClockSkewMarginSecs) 0
  | none => max (s.clock - nostrFirstRunBackfillSecs) 0

def writeNostrWatermarkToStorage (value : ℤ) (written : Bool) : NostrReceiver :=
  if written then { s with stored := some value, lastPersistedNostrWatermark := some value } else s

def persistNostrWatermark (written : Bool) : NostrReceiver :=
  match s.receiveWatermark with
  | none => s
  | some current =>
    if s.lastPersistedNostrWatermark.all fun last =>
        decide (nostrWatermarkPersistIntervalSecs ≤ current - last) then
      s.writeNostrWatermarkToStorage current written
    else s

def flushNostrWatermark (written : Bool) : NostrReceiver :=
  match s.receiveWatermark with
  | none => s
  | some current =>
    if s.lastPersistedNostrWatermark = some current then s
    else s.writeNostrWatermarkToStorage current written

def noteNostrEventReceived (createdAtSecs : ℤ) (written : Bool) : NostrReceiver :=
  let advanced := s.advanceReceiveWatermark createdAtSecs
  if advanced.2 then advanced.1.persistNostrWatermark written else advanced.1

/-- A record the transport refused as future-dated is no baseline for the
debounce. A read may be refused. -/
def restoreNostrWatermark (readable : Bool) : NostrReceiver :=
  match (if readable then s.stored else none) with
  | none => s
  | some restored =>
    let installed := (s.advanceReceiveWatermark restored).1
    let adopted := installed.receiveWatermark.any (decide <| restored ≤ ·)
    { installed with lastPersistedNostrWatermark := if adopted then some restored else none }

end NostrReceiver

inductive WatermarkOp
  | noteNostrEventReceived (createdAtSecs : ℤ) (written : Bool)
  | flushNostrWatermark (written : Bool)
  | restoreNostrWatermark (readable : Bool)
  | connect
  | disconnect
  | restart

namespace NostrReceiver

/-- An event arrives over an open subscription only. A restart loses the
transport and what it knew, and with it the subscription. -/
def perform (s : NostrReceiver) : WatermarkOp → NostrReceiver
  | .noteNostrEventReceived createdAtSecs written =>
    if s.closedSince = none then s.noteNostrEventReceived createdAtSecs written else s
  | .flushNostrWatermark written => s.flushNostrWatermark written
  | .restoreNostrWatermark readable => s.restoreNostrWatermark readable
  | .connect => { s with closedSince := none }
  | .disconnect => { s with closedSince := some (s.closedSince.getD s.clock) }
  | .restart =>
    { s with
      receiveWatermark := none
      lastPersistedNostrWatermark := none
      closedSince := some (s.closedSince.getD s.clock) }

def elapse (s : NostrReceiver) (seconds : ℕ) : NostrReceiver :=
  { s with clock := s.clock + seconds }

def step (s : NostrReceiver) (a : ℕ × WatermarkOp) : NostrReceiver × List Empty :=
  ((s.elapse a.1).perform a.2, [])

/-- An event of a sender whose clock lags by no more than the margin, dated
within the jitter before it was published, and not before the epoch. -/
structure Honest (publishedAt createdAt : ℤ) : Prop where
  epoch : 0 ≤ createdAt
  jittered : publishedAt - (nostrCreatedAtJitterSecs + nostrClockSkewMarginSecs) ≤ createdAt
  past : createdAt ≤ publishedAt

/-- Every honest event published since the last subscription closed is within
reach of the one that would be made now. -/
def Reaches (s : NostrReceiver) : Prop :=
  ∀ closed ∈ s.closedSince, s.receiveWatermark.isSome →
    ∀ publishedAt createdAt, closed ≤ publishedAt → Honest publishedAt createdAt →
      s.subscriptionSince ≤ createdAt

/-- A subscription closes with the mark no later than the clock. -/
def ClosesBehindClock (s : NostrReceiver) : ℕ × WatermarkOp → Prop
  | (seconds, .disconnect) | (seconds, .restart) =>
    s.closedSince = none → ∀ mark ∈ s.receiveWatermark, mark ≤ s.clock + seconds
  | _ => True

instance (s : NostrReceiver) : ∀ a, Decidable (s.ClosesBehindClock a) := by
  rintro ⟨now, op⟩
  cases op <;> dsimp only [ClosesBehindClock] <;> infer_instance

/-- While no subscription is open, neither the mark nor the record is later
than its closing. While one is, the record is behind the clock or the mark. -/
structure Behind (s : NostrReceiver) : Prop where
  closed : ∀ c ∈ s.closedSince, c ≤ s.clock ∧ (∀ m ∈ s.receiveWatermark, m ≤ c) ∧
    ∀ r ∈ s.stored, r ≤ c
  opened : s.closedSince = none → ∀ r ∈ s.stored, r ≤ s.clock ∨ ∃ m ∈ s.receiveWatermark, r ≤ m

variable {s : NostrReceiver}

lemma advance_cases (s : NostrReceiver) (x) : (s.advanceReceiveWatermark x).1 = s ∨
      (s.advanceReceiveWatermark x).1 = { s with receiveWatermark := some x } ∧
        ∀ m ∈ s.receiveWatermark, m ≤ x := by
  unfold advanceReceiveWatermark
  split_ifs
  · exact Or.inl rfl
  · exact Or.inl rfl
  cases hmark : s.receiveWatermark with
  | none => exact Or.inr ⟨rfl, fun m hm => absurd hm (not_mem_none m)⟩
  | some current =>
    by_cases hle : x ≤ current
    · exact Or.inl (by simp only [if_pos hle])
    refine Or.inr ⟨by simp only [if_neg hle], fun m hm => ?_⟩
    rw [← some.inj hm]
    omega

lemma write_cases (s : NostrReceiver) (value written) :
    s.writeNostrWatermarkToStorage value written = s ∨
      s.writeNostrWatermarkToStorage value written =
        { s with stored := some value, lastPersistedNostrWatermark := some value } := by
  unfold writeNostrWatermarkToStorage
  split_ifs
  · exact Or.inr rfl
  · exact Or.inl rfl

section
variable (h : Behind s)
include h

lemma Behind.write (hmark : s.receiveWatermark = some value)
    {written} : Behind (s.writeNostrWatermarkToStorage value written) := by
  rcases write_cases s value written with hw | hw
  · rw [hw]
    exact h
  rw [hw]
  constructor
  · intro c hc
    obtain ⟨hclock, hbound, -⟩ := h.closed c hc
    refine ⟨hclock, hbound, fun r hr => ?_⟩
    rw [← some.inj hr]
    exact hbound value hmark
  · intro _ r hr
    rw [← some.inj hr]
    exact Or.inr ⟨value, hmark, le_rfl⟩

lemma Behind.persist {written} : Behind (s.persistNostrWatermark written) := by
  unfold persistNostrWatermark
  cases hmark : s.receiveWatermark with
  | none => exact h
  | some current =>
    dsimp only
    split_ifs
    · exact h.write hmark
    · exact h

lemma Behind.flush {written} : Behind (s.flushNostrWatermark written) := by
  unfold flushNostrWatermark
  cases hmark : s.receiveWatermark with
  | none => exact h
  | some current =>
    dsimp only
    split_ifs
    · exact h
    · exact h.write hmark

lemma Behind.advance (hx : ∀ c ∈ s.closedSince, x ≤ c) :
    Behind (s.advanceReceiveWatermark x).1 := by
  rcases advance_cases s x with hadv | ⟨hadv, hle⟩
  · rw [hadv]
    exact h
  rw [hadv]
  constructor
  · intro c hc
    obtain ⟨hclock, -, hrec⟩ := h.closed c hc
    refine ⟨hclock, fun m hm => ?_, hrec⟩
    rw [← some.inj hm]
    exact hx c hc
  · intro hopen r hr
    rcases h.opened hopen r hr with hclock | ⟨m, hm, hrm⟩
    · exact Or.inl hclock
    · exact Or.inr ⟨x, rfl, hrm.trans (hle m hm)⟩

lemma Behind.restore {readable} : Behind (s.restoreNostrWatermark readable) := by
  unfold restoreNostrWatermark
  cases hread : (if readable then s.stored else none) with
  | none => exact h
  | some restored =>
    have hstored : s.stored = some restored := by
      cases readable
      · cases hread
      · exact hread
    have hin := h.advance (x := restored) fun c hc => (h.closed c hc).2.2 restored hstored
    exact ⟨hin.closed, hin.opened⟩

lemma Behind.elapse {seconds} : Behind (s.elapse seconds) := by
  constructor
  · intro c hc
    obtain ⟨hclock, hrest⟩ := h.closed c hc
    exact ⟨by simp only [NostrReceiver.elapse]; omega, hrest⟩
  intro hopen r hr
  rcases h.opened hopen r hr with hclock | hm
  · exact Or.inl (by simp only [NostrReceiver.elapse]; omega)
  · exact Or.inr hm

/-- What closing needs: the mark is not ahead of the clock. -/
lemma Behind.close (hmark : s.closedSince = none → ∀ mark ∈ s.receiveWatermark, mark ≤ s.clock) :
    Behind { s with closedSince := some (s.closedSince.getD s.clock) } := by
  constructor
  · intro c hc
    obtain rfl := some.inj hc
    cases hclosed : s.closedSince with
    | some c => exact h.closed c hclosed
    | none =>
      refine ⟨le_rfl, hmark hclosed, fun r hr => ?_⟩
      rcases h.opened hclosed r hr with hclock | ⟨m, hm, hrm⟩
      · exact hclock
      · exact hrm.trans (hmark hclosed m hm)
  · intro hopen
    cases hopen

lemma Behind.perform (hclose : op = .disconnect ∨ op = .restart → s.closedSince = none →
      ∀ mark ∈ s.receiveWatermark, mark ≤ s.clock) : Behind (s.perform op) := by
  cases op with
  | noteNostrEventReceived x written =>
    unfold NostrReceiver.perform
    split_ifs with hopen
    · have hadv : Behind (s.advanceReceiveWatermark x).1 :=
        h.advance fun c hc => by rw [hopen] at hc; cases hc
      simp only [NostrReceiver.noteNostrEventReceived]
      split_ifs
      · exact hadv.persist
      · exact hadv
    · exact h
  | flushNostrWatermark written => exact h.flush
  | restoreNostrWatermark readable => exact h.restore
  | connect =>
    constructor
    · intro c hc
      cases hc
    intro _ r hr
    -- what was closed until now keeps the record behind the clock
    cases hclosed : s.closedSince with
    | none => exact h.opened hclosed r hr
    | some c =>
      obtain ⟨hclock, -, hrec⟩ := h.closed c hclosed
      exact Or.inl ((hrec r hr).trans hclock)
  | disconnect => exact h.close (hclose (Or.inl rfl))
  | restart =>
    have hclosed := h.close (hclose (Or.inr rfl))
    constructor
    · intro c hc
      obtain ⟨hclock, -, hrec⟩ := hclosed.closed c hc
      exact ⟨hclock, fun m hm => absurd hm (not_mem_none m), hrec⟩
    intro hopen
    cases hopen

omit h in
lemma step_behind (s : NostrReceiver) (a) (h : Behind s)
    (hcond : s.ClosesBehindClock a) : Behind (s.step a).1 := by
  obtain ⟨seconds, op⟩ := a
  apply (h.elapse).perform
  intro hop hopen
  rcases hop with rfl | rfl
  · exact hcond hopen
  · exact hcond hopen

lemma Behind.reaches : s.Reaches := by
  intro closed hclosed hsome publishedAt createdAt hpublished hhon
  obtain ⟨mark, hmark⟩ := isSome_iff_exists.1 hsome
  have hbound : mark ≤ closed := (h.closed closed hclosed).2.1 mark hmark
  have hjit := hhon.jittered
  have hepoch := hhon.epoch
  simp only [subscriptionSince, hmark]
  omega

end

/-- The watermark hides no honest event, where each subscription closes with
the mark behind the clock. -/
theorem honest_events_reached (clock : ℕ) (ops : List (ℕ × WatermarkOp))
    (h : AlongSteps step ClosesBehindClock (new clock) ops) :
    (runSteps step (new clock) ops).1.Reaches := by
  have hnew : Behind (new clock) := by
    constructor
    · intro c hc
      obtain rfl := some.inj hc
      exact ⟨le_rfl, fun m hm => absurd hm (not_mem_none m), fun r hr => absurd hr (not_mem_none r)⟩
    · intro hopen
      cases hopen
  exact (runSteps_along step_behind h hnew).reaches

def outlastedOps : List (ℕ × WatermarkOp) :=
  [(0, .connect), (10, .noteNostrEventReceived 10610 true), (700, .restart),
    (5, .restoreNostrWatermark true)]

theorem honest_events_reached_outlasted :
    AlongSteps step ClosesBehindClock (new 10000) outlastedOps ∧
      (runSteps step (new 10000) outlastedOps).1.receiveWatermark = some 10610 ∧
      (runSteps step (new 10000) outlastedOps).1.Reaches :=
  ⟨by decide, by decide, honest_events_reached 10000 outlastedOps (by decide)⟩

/-- An event dated fifteen minutes ahead is taken for the mark. The subscription
closes at once, and an event published a second later with the oldest date an
honest sender gives it is out of reach of the next one. -/
theorem future_dated_event_hides_honest :
    ¬(runSteps step (new 10000) [(0, .connect), (0, .noteNostrEventReceived 10900 true),
      (0, .disconnect), (1000, .flushNostrWatermark true)]).1.Reaches := by
  intro h
  have hreach := h 10000 (by decide) (by decide) 10001 6101 (by decide)
    ⟨by decide, by decide, by decide⟩
  revert hreach
  decide

end NostrReceiver

end OfflineProtocol
