import OfflineProtocol.CustodyFairness
import OfflineProtocol.FlushRefinement

/-! An id stays suppressed for the retention time after the recording of a forward
that went out, as long as every release of a suppression entry is made by the
forward the entry stands for. -/
namespace OfflineProtocol
open KeyedTable EventTrace Function List

def MeshEvent.releasing : MeshEvent → Option PendingRelay
  | .displaced r | .abandoned r | .refused r => some r
  | _ => none

def readClock (t : ℕ) : MeshEvent → ℕ
  | .tick now => now
  | _ => t

def clockOf (es : List MeshEvent) : ℕ := es.foldl readClock 0

lemma clockOf_concat (es e) :
    clockOf (es ++ [e]) = readClock (clockOf es) e := foldl_concat _ _ _ _

namespace MeshState
variable {retention : ℕ} {s s' : MeshState} {e : MeshEvent} {r : PendingRelay} {x : MessageId}
variable {t₀ : ℕ} {l : List MeshEvent}

/-- A forward of `x` went out after a recording of `x` that is still within the
retention time. -/
def CarriedWithin (retention : ℕ) (s : MeshState) (x : MessageId) : Prop :=
  ∃ l₁ r b l₂, s.past = l₁ ++ .queued r b :: l₂ ∧ r.message.id = x ∧
    s.now < clockOf l₁ + retention ∧ ∃ q peers, .carried q peers ∈ l₂ ∧ q.message.id = x

/-- The suppression entry of `r`'s id, if live, stands for `r` alone: `r` is an
ordinary forward, no other one of the id waits, and none has gone out. -/
def Owns (retention : ℕ) (s : MeshState) (r : PendingRelay) : Prop :=
  s.Suppressed retention r.message.id → r.Ordinary ∧
    (∀ q ∈ s.waiting.erase r, q.Ordinary → q.message.id ≠ r.message.id) ∧
    ¬ s.CarriedWithin retention r.message.id

/-- Entries are released only by the forward they stand for. -/
def ReleasesOwn (retention : ℕ) (s : MeshState) (e : MeshEvent) : Prop :=
  ∀ r, e.releasing = some r → s.Owns retention r

def carrying : MeshEvent → Option PendingRelay
  | .carried r _ => some r
  | _ => none

/-- One forward releases its entry before any went out, and no other entry is released. -/
lemma along_released_once (log : List MeshEvent) (n : ℕ)
    (hbefore : ∀ ev ∈ log.take n, ev.releasing = none ∧ carrying ev = none)
    (hafter : ∀ ev ∈ log.drop (n + 1), ev.releasing = none)
    (hat : ∀ ev ∈ (log.drop n).head?, ∀ r ∈ ev.releasing, r.Ordinary ∧
      ∀ q ∈ ((meshMachine retention).replay .start (log.take n)).waiting.erase r,
        q.Ordinary → q.message.id ≠ r.message.id) :
    (meshMachine retention).Along (ReleasesOwn retention) .start log := by
  have hquiet {ev : MeshEvent} (hev : ev.releasing = none) (t : MeshState) :
      ReleasesOwn retention t ev := fun r hr => by
    rw [hev] at hr
    cases hr
  have hpre : (meshMachine retention).Along (ReleasesOwn retention) .start (log.take n) :=
    Machine.along_of_forall fun ev hev => hquiet (hbefore ev hev).1
  rw [← take_append_drop n log]
  refine (Machine.along_append _ _).2 ⟨hpre, ?_⟩
  rw [← tail_drop] at hafter
  cases hrest : log.drop n with
  | nil => trivial
  | cons ev after =>
    rw [hrest] at hat hafter
    refine ⟨fun r hr _ => ?_, Machine.along_of_forall fun ev' hev => hquiet (hafter ev' hev)⟩
    obtain ⟨hordinary, halone⟩ := hat ev rfl r hr
    refine ⟨hordinary, halone, ?_⟩
    rintro ⟨l₁, _, _, l₂, hpast, -, -, q, peers, hq, -⟩
    have hmem : MeshEvent.carried q peers ∈ log.take n := by
      have hall := (replay_past start (log.take n)).symm.trans hpast
      rw [show start.past = [] from rfl, nil_append] at hall
      rw [hall]
      exact mem_append_right l₁ (.tail _ hq)
    cases (hbefore _ hmem).2

lemma effect_now {s : MeshState} {e} : (s.effect retention e).now = readClock s.now e := by
  cases e <;> rfl

lemma now_le_effect (hen : s.Enabled retention e) : s.now ≤ (s.effect retention e).now := by
  cases e with
  | tick now => exact hen
  | _ => exact le_rfl

lemma now_le_of_runs (h : (meshMachine retention).Runs s es s') : s.now ≤ s'.now :=
  h.invariant (I := fun t => s.now ≤ t.now) (C := fun _ _ => True)
    (fun _ _ hs hen _ => hs.trans (now_le_effect hen)) (Machine.along_of_forall fun _ _ _ => trivial)
    le_rfl

/-- Either `x` was recorded at `t₀` or later, or no ordinary forward of it
waits and none went out in `l`. -/
def Stands (s : MeshState) (x : MessageId) (t₀ : ℕ) (l : List MeshEvent) : Prop :=
  (∃ t, s.seen x = some t ∧ t₀ ≤ t) ∨
    ((∀ q ∈ s.waiting, q.Ordinary → q.message.id ≠ x) ∧
      ∀ q peers, .carried q peers ∈ l → q.message.id ≠ x)

section
variable (h : s.Stands x t₀ l)
include h

lemma Stands.recorded (hr : r ∈ s.waiting)
    (ho : r.Ordinary) (hx : r.message.id = x) : ∃ t, s.seen x = some t ∧ t₀ ≤ t :=
  h.resolve_right fun hno => hno.1 r hr ho hx

lemma Stands.frame (hseen : ∀ t, s.seen x = some t → t₀ ≤ t → s'.seen x = some t)
    (hwait : ∀ q ∈ s'.waiting, q.Ordinary → q.message.id = x →
      ∃ q' ∈ s.waiting, q'.Ordinary ∧ q'.message.id = x)
    (he : ∀ q peers, e = .carried q peers → q.message.id ≠ x) : s'.Stands x t₀ (l ++ [e]) := by
  rcases h with ⟨t, ht, hle⟩ | ⟨hnone, hcar⟩
  · exact .inl ⟨t, hseen t ht hle, hle⟩
  refine .inr ⟨fun q hq ho hx => ?_, fun q peers hq => ?_⟩
  · obtain ⟨q', hq', ho', hx'⟩ := hwait q hq ho hx
    exact hnone q' hq' ho' hx'
  rcases mem_append.1 hq with hq | hq
  · exact hcar q peers hq
  · exact he q peers (mem_singleton.1 hq).symm

lemma Stands.release (hown : s.Owns retention r) (hle : t₀ ≤ s.now) (hin : s.now < t₀ + retention)
    (hpast : ∀ q peers, .carried q peers ∈ l → q.message.id = x → s.CarriedWithin retention x)
    (he : ∀ q peers, e ≠ .carried q peers) (hw : s'.waiting = s.waiting.erase r)
    (hs : s'.seen = update s.seen r.message.id none) : s'.Stands x t₀ (l ++ [e]) := by
  have hsub : ∀ q ∈ s'.waiting, q ∈ s.waiting := by
    rw [hw]
    exact fun q hq => Multiset.mem_of_mem_erase hq
  by_cases hx : x = r.message.id
  · refine .inr ?_
    have hcut : ∀ q peers, .carried q peers ∈ l ++ [e] → .carried q peers ∈ l :=
      fun q peers hq => (mem_append.1 hq).resolve_right fun h =>
        he q peers (mem_singleton.1 h).symm
    rcases h with ⟨t, ht, hle'⟩ | ⟨hnone, hcar⟩
    · obtain ⟨-, halone, hout⟩ := hown ⟨t, hx ▸ ht, by omega⟩
      refine ⟨fun q hq ho => hx ▸ halone q (hw ▸ hq) ho, fun q peers hq heq => ?_⟩
      exact hout (hx ▸ hpast q peers (hcut q peers hq) heq)
    · exact ⟨fun q hq => hnone q (hsub q hq), fun q peers hq => hcar q peers (hcut q peers hq)⟩
  · refine h.frame (fun t ht _ => ?_) (fun q hq ho hqx => ⟨q, hsub q hq, ho, hqx⟩)
      fun q peers heq => absurd heq (he q peers)
    rw [hs, update_of_ne hx]
    exact ht

lemma Stands.step (hen : s.Enabled retention e)
    (hown : s.ReleasesOwn retention e) (hle : t₀ ≤ s.now) (hin : s.now < t₀ + retention)
    (hpast : ∀ q peers, .carried q peers ∈ l → q.message.id = x → s.CarriedWithin retention x)
    (hcap : e ≠ .capacityDropped x) :
    ((meshMachine retention).apply s e).Stands x t₀ (l ++ [e]) := by
  have hrel : ∀ r, e.releasing = some r → (s.effect retention e).waiting = s.waiting.erase r →
      (s.effect retention e).seen = update s.seen r.message.id none →
      ((meshMachine retention).apply s e).Stands x t₀ (l ++ [e]) := by
    intro r hr hw hs
    refine h.release (hown r hr) hle hin hpast (fun q peers heq => ?_) hw hs
    rw [heq] at hr
    cases hr
  have hsub : ∀ q ∈ s.waiting, q.Ordinary → q.message.id = x →
      ∃ q' ∈ s.waiting, q'.Ordinary ∧ q'.message.id = x := fun q hq ho hx => ⟨q, hq, ho, hx⟩
  have herase : ∀ r, ∀ q ∈ s.waiting.erase r, q.Ordinary → q.message.id = x →
      ∃ q' ∈ s.waiting, q'.Ordinary ∧ q'.message.id = x :=
    fun r q hq => hsub q (Multiset.mem_of_mem_erase hq)
  cases e with
  | displaced r => exact hrel r rfl rfl rfl
  | abandoned r => exact hrel r rfl rfl rfl
  | refused r => exact hrel r rfl rfl rfl
  | tick | arrived | deposited | dropped =>
    exact h.frame (fun t ht _ => ht) hsub (by simp)
  | covered r | reOriginated r | delivered r | returned r =>
    exact h.frame (fun t ht _ => ht) (herase r) (by simp)
  | expired =>
    refine h.frame (fun t ht hle' => ?_) hsub (by simp)
    have hlive : s.now - t < retention := by omega
    simp [effect, ht, Option.filter_some, hlive]
  | capacityDropped y =>
    refine h.frame (fun t ht _ => ?_) hsub (by simp)
    have hy : x ≠ y := fun hxy => hcap (hxy ▸ rfl)
    simp [effect, forget, update_of_ne hy, ht]
  | narrowed r peer =>
    refine h.frame (fun t ht _ => ht) (fun q hq ho hx => ?_) (by simp)
    rcases Multiset.mem_cons.1 hq with rfl | hq
    · exact ⟨r, hen.1, ho, hx⟩
    · exact herase r q hq ho hx
  | queued r resend =>
    by_cases hx : x = r.message.id
    · exact .inl ⟨s.now, by simp [effect, hx], hle⟩
    refine h.frame (fun t ht _ => ?_) (fun q hq ho hqx => ?_) (by simp)
    · simp [effect, update_of_ne hx, ht]
    rcases Multiset.mem_cons.1 hq with rfl | hq
    · exact absurd hqx.symm hx
    · exact hsub q hq ho hqx
  | queuedHeld r peer =>
    refine h.frame (fun t ht _ => ht) (fun q hq ho hx => ?_) (by simp)
    rcases Multiset.mem_cons.1 hq with rfl | hq
    · exact absurd (ho.symm.trans hen.1) (by simp)
    · exact hsub q hq ho hx
  | carried r peers =>
    by_cases hx : r.message.id = x
    · exact .inl (h.recorded hen.1 hen.2.1 hx)
    refine h.frame (fun t ht _ => ht) (herase r) fun q ps heq => ?_
    injection heq with hqr
    exact hqr ▸ hx
  | erased =>
    exact h.frame (fun t ht _ => ht) (fun q hq => hsub q (Multiset.mem_of_mem_filter hq)) (by simp)
  | handled y =>
    refine h.frame (fun t ht _ => ?_) hsub (by simp)
    by_cases hy : x = y
    · simp [effect, hy ▸ ht, hy]
    · simp [effect, update_of_ne hy, ht]

end

structure Standing (retention : ℕ) (s : MeshState) : Prop where
  clock : s.now = clockOf s.past
  mono : ∀ l, l <+: s.past → clockOf l ≤ s.now
  stands : ∀ l₁ r b l₂, s.past = l₁ ++ .queued r b :: l₂ → .capacityDropped r.message.id ∉ l₂ →
    s.now < clockOf l₁ + retention → s.Stands r.message.id (clockOf l₁) l₂

lemma start_standing : start.Standing retention where
  clock := rfl
  mono l hl := by
    rw [prefix_nil.1 hl]
    exact le_rfl
  stands l₁ r b l₂ h := absurd h.symm (by simp [start])

lemma Standing.step (h : s.Standing retention) (hen : s.Enabled retention e)
    (hown : s.ReleasesOwn retention e) : ((meshMachine retention).apply s e).Standing retention := by
  have hclock : ((meshMachine retention).apply s e).now = clockOf (s.past ++ [e]) := by
    rw [clockOf_concat, ← h.clock]
    exact effect_now
  have hgrow : s.now ≤ ((meshMachine retention).apply s e).now := now_le_effect hen
  refine ⟨hclock, fun l hl => ?_, fun l₁ r b l₂ hsplit hcap hin => ?_⟩
  · rcases prefix_concat_iff.1 hl with rfl | hl
    · exact hclock.ge
    · exact (h.mono l hl).trans hgrow
  rcases concat_eq_split hsplit with ⟨rfl, rfl, rfl⟩ | ⟨l, rfl, hpast⟩
  · exact .inl ⟨s.now, by simp [effect], h.clock.ge⟩
  have hin' := hgrow.trans_lt hin
  have hl1 : l₁ <+: s.past := hpast ▸ prefix_append _ _
  refine (h.stands l₁ r b l hpast (fun hm => hcap (mem_append_left _ hm)) hin').step
    hen hown (h.mono l₁ hl1) hin' (fun q peers hq hx => ?_) fun heq => ?_
  · exact ⟨l₁, r, b, l, hpast, rfl, hin', q, peers, hq, hx⟩
  · exact hcap (mem_append_right _ (heq ▸ mem_singleton_self _))

lemma Standing.not_queued_again (h : s.Standing retention)
    (hpast : s.past = l₁ ++ .queued r₀ b :: l₂) (hcar : .carried q peers ∈ l₂)
    (hq : q.message.id = r₀.message.id) (hr₁ : r₁.message.id = r₀.message.id)
    (hcap : .capacityDropped r₀.message.id ∉ l₂) (hen : s.Enabled retention (.queued r₁ false)) :
    clockOf l₁ + retention ≤ s.now := by
  by_contra hlt
  have hl1 : l₁ <+: s.past := hpast ▸ prefix_append _ _
  have hle := h.mono l₁ hl1
  rcases h.stands l₁ r₀ b l₂ hpast hcap (by omega) with ⟨t, ht, hle'⟩ | ⟨-, hout⟩
  · exact hen.2.2 rfl ⟨t, hr₁ ▸ ht, by omega⟩
  · exact hout q peers hcar hq

end MeshState

def MeshEvent.Touches (x : MessageId) : MeshEvent → Prop
  | .displaced r => r.Ordinary ∧ r.message.id = x
  | .queued r _ | .abandoned r | .refused r => r.message.id = x
  | .capacityDropped y | .handled y => y = x
  | _ => False

instance (x : MessageId) (e : MeshEvent) : Decidable (e.Touches x) := by
  apply @MeshEvent.casesOn (fun e => Decidable (e.Touches x)) e <;> intros <;>
    dsimp only [MeshEvent.Touches] <;> infer_instance

namespace MeshState
variable {retention : ℕ} {s s' : MeshState} {e : MeshEvent} {x : MessageId}

lemma live_effect (hown : s.ReleasesOwn retention e) (ht : ¬ e.Touches x) {now : ℕ}
    (hle : s.now ≤ now) (t) :
    (s.seen x = some t ∧ now - t < retention) ↔
      ((s.effect retention e).seen x = some t ∧ now - t < retention) := by
  have hother : ∀ {y : MessageId} {v : Option ℕ}, y ≠ x → (s.seen x = some t ∧ now - t < retention ↔
      update s.seen y v x = some t ∧ now - t < retention) := by
    intro y v hy
    rw [update_of_ne (Ne.symm hy)]
  cases e with
  | displaced r =>
    by_cases hx : r.message.id = x
    · have hm : ¬ s.Suppressed retention x := fun hs =>
        ht ⟨((hown r rfl) (hx ▸ hs)).1, hx⟩
      simp only [effect, forget, settle, hx, update_self, reduceCtorEq, false_and, iff_false]
      exact fun hlive => hm ⟨t, hlive.1, by omega⟩
    · exact hother hx
  | expired =>
    simp only [effect, Option.filter_eq_some_iff, decide_eq_true_eq]
    exact ⟨fun h => ⟨⟨h.1, by omega⟩, h.2⟩, fun h => ⟨h.1.1, h.2⟩⟩
  | capacityDropped | queued | abandoned | refused | handled => exact hother ht
  | _ => exact .rfl

lemma live_runs (h : (meshMachine retention).Runs s es s')
    (hown : (meshMachine retention).Along (ReleasesOwn retention) s es)
    (ht : ∀ e ∈ es, ¬ e.Touches x) (t) :
    (s.seen x = some t ∧ s'.now - t < retention) ↔
      (s'.seen x = some t ∧ s'.now - t < retention) := by
  obtain ⟨rfl, hen⟩ := h
  induction es generalizing s with
  | nil => exact .rfl
  | cons e es ih =>
    have hle : s.now ≤ ((meshMachine retention).replay s (e :: es)).now :=
      now_le_of_runs ⟨rfl, hen⟩
    exact (live_effect hown.1 (ht e (.head _)) hle t).trans
      (ih hown.2 (fun e' he' => ht e' (.tail _ he')) hen.2)

end MeshState

namespace MeshEngine
variable {F : Type*} [AirArith F]

/-- In every run whose suppression entries are released only by the forwards they stand for, a
step leaves the entries of other ids alone apart from expiry, and once a forward went out no copy
but an origin re-send is queued within the retention time, unless the cache dropped the id. -/
theorem suppression_outlasts_custody (localId : String) (config : MeshRelayConfig F)
    (custody : CustodyConfig) (steps : List Step) (hown : (meshMachine config.seen.retention).Along
      (MeshState.ReleasesOwn config.seen.retention) MeshState.start
      (run localId config custody steps).2) :
    (∀ before s after, steps = before ++ s :: after →
      let e := (run localId config custody before).1
      let next := e.step s
      ∀ x, (∀ ev ∈ next.2, ¬ ev.Touches x) → ∀ t,
        (get e.mesh.seen.entries x = some t ∧ next.1.clock - t < config.seen.retention ↔
          get next.1.mesh.seen.entries x = some t ∧ next.1.clock - t < config.seen.retention)) ∧
    (∀ l₁ r₀ b l₂ r peers l₃ r₁ l₄, (run localId config custody steps).2 =
        (l₁ ++ .queued r₀ b :: (l₂ ++ .carried r peers :: l₃)) ++ .queued r₁ false :: l₄ →
      r.message.id = r₀.message.id → r₁.message.id = r₀.message.id →
      .capacityDropped r₀.message.id ∉ l₂ ++ l₃ →
      clockOf l₁ + config.seen.retention ≤
        clockOf (l₁ ++ .queued r₀ b :: (l₂ ++ .carried r peers :: l₃))) := by
  obtain ⟨-, hruns⟩ := run_refines localId config custody steps
  constructor
  · intro before s after hsteps e next x hx t
    obtain ⟨hsound, hbef⟩ := run_refines localId config custody before
    obtain ⟨-, htrack⟩ := step_tracks hsound s
    -- The condition on the whole history, cut down to the events of this step.
    have hlog : (run localId config custody steps).2 = (run localId config custody before).2 ++
        (next.2 ++ (runSteps step next.1 after).2) := by
      rw [hsteps]
      exact congrArg Prod.snd (runSteps_append step _ before (s :: after))
    rw [hlog] at hown
    have hcut := ((Machine.along_append _ _).1 ((Machine.along_append _ _).1 hown).2).1
    rw [hbef.replays] at hcut
    exact MeshState.live_runs (htrack _) hcut hx t
  · intro l₁ r₀ b l₂ r peers l₃ r₁ l₄ hlog hr hr₁ hcap
    rw [hlog] at hruns hown
    obtain ⟨hpre, hen, -⟩ := hruns.split
    have hstand := hpre.invariant (fun _ _ hs hen hc => MeshState.Standing.step hs hen hc)
      ((Machine.along_append _ _).1 hown).1 MeshState.start_standing
    have hpast : ((meshMachine config.seen.retention).replay .start
        (l₁ ++ .queued r₀ b :: (l₂ ++ .carried r peers :: l₃))).past = _ :=
      MeshState.replay_past _ _
    have hnow := hstand.clock
    rw [hpast] at hnow
    refine (hstand.not_queued_again hpast
      (mem_append_right l₂ (.head _)) hr hr₁ ?_ hen).trans_eq hnow
    simpa using hcap

def depositFrame (id : MessageId) (sender : PeerId) (priority : MessagePriority) : Message where
  id := id
  sender := sender
  recipient := "r"
  appId := "app"
  priority := priority
  ttl := 5
  hopCount := 1
  content := "__MLS_ENC__x"
  binaryContent := none
  mediaMetadata := none
  metadata := AList.singleton custodyMetaKey "data"

/-- The frame is abandoned and deposited. A further copy goes out, the deposited one is
handed on, and copies arrive at once and after the retention time. -/
def redeliverySteps : List Step :=
  let copy (peer : PeerId) : Step := .now (.admitMessage (depositFrame "m1" "a" .medium) (some peer) 2)
  [copy "a", .flushTo 6000 [], copy "z", .flushTo 100 ["n"], .now (.redeliver "c" ["c"] true true),
    .flushTo 100 ["c"], copy "y", .flushTo 600000 [], copy "y"]

theorem suppression_outlasts_custody_redelivered :
    let config : MeshRelayConfig ℚ := .default
    let log := (run "d" config CustodyStore.narrowConfig redeliverySteps).2
    let e := (run "d" config CustodyStore.narrowConfig (redeliverySteps.take 4)).1
    let next := e.step (.now (.redeliver "c" ["c"] true true))
    (log.filterMap MeshEvent.releasing).map (·.message.id) = ["m1"] ∧
      next.1.mesh.pending.map (·.custodyTarget) = [some "c"] ∧
      get next.1.mesh.seen.entries "m1" = some 6000 ∧ ∀ l₁ r₀ b l₂ r peers l₃ r₁ l₄,
        log = (l₁ ++ .queued r₀ b :: (l₂ ++ .carried r peers :: l₃)) ++ .queued r₁ false :: l₄ →
        r.message.id = r₀.message.id → r₁.message.id = r₀.message.id →
        .capacityDropped r₀.message.id ∉ l₂ ++ l₃ →
        clockOf l₁ + 600000 ≤ clockOf (l₁ ++ .queued r₀ b :: (l₂ ++ .carried r peers :: l₃)) := by
  intro config log e next
  have hown : (meshMachine config.seen.retention).Along
      (MeshState.ReleasesOwn config.seen.retention) MeshState.start log :=
    MeshState.along_released_once log 6 (by decide +kernel) (by decide +kernel) (by decide +kernel)
  obtain ⟨hsteps, hagain⟩ :=
    suppression_outlasts_custody "d" config CustodyStore.narrowConfig redeliverySteps hown
  have htouch : ∀ ev ∈ next.2, ¬ev.Touches "m1" := by decide +kernel
  have hkept := hsteps (redeliverySteps.take 4) (.now (.redeliver "c" ["c"] true true))
    (redeliverySteps.drop 5) rfl "m1" htouch 6000
  refine ⟨by decide +kernel, by decide +kernel, ?_, hagain⟩
  dsimp only [next, e]
  exact (hkept.1 (by decide +kernel)).1

/-- With room for one forward, `m2` displaces the marked forward of `m1`, the entry of `m1` goes
with it, and a copy of `m1` arriving 200 ms after the recording is queued again. -/
theorem suppression_lost_to_displacement :
    let settled : List Step :=
      [.now (.admitMessage (depositFrame "m1" "a" .medium) (some "a") 2), .flushTo 6000 [],
        .now (.admitMessage (depositFrame "m2" "b" .high) (some "b") 2), .flushTo 6000 [],
        .now (.admitMessage (depositFrame "m1" "a" .medium) (some "z") 2), .flushTo 100 ["n"]]
    let config : MeshRelayConfig ℚ := { MeshRelayConfig.default with queueCapacity := 1 }
    let e := (run "d" config CustodyStore.narrowConfig settled).1
    let next := e.step (.now (.redeliver "c" ["c"] true true))
    let last := next.1.step (.flushTo 100 ["c"])
    e.mesh.pending = [] ∧ get e.mesh.seen.entries "m1" = some 12000 ∧
      next.1.mesh.pending.map (fun r => (r.message.id, r.custodyTarget)) = [("m2", some "c")] ∧
      get next.1.mesh.seen.entries "m1" = none ∧ last.1.clock = 12200 ∧
      (last.1.mesh.admitMessage ⟨fun _ => 0, id⟩ (depositFrame "m1" "a" .medium) (some "y") 2
        12200).2.1 =
        .queued := by
  decide +kernel

end MeshEngine

end OfflineProtocol
