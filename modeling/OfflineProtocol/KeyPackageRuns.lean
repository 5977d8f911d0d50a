import OfflineProtocol.KeyPackageHandOut

/-! Runs of a manager whose calls all succeed, and what is handed out along them. -/
namespace OfflineProtocol
open KeyedTable FaultySchedule EventTrace KeyPool List
open Interruption (Fault Part Outcome)

def settle {α : Type} (m : PoolM α) (s : KeyPool) : Option α × KeyPool :=
  match m (fun _ _ => .done) ⟨s, []⟩ with
  | (.returned a, p) => (some a, p.durable)
  | (_, p) => (none, p.durable)

lemma settle_spec {α : Type} {m} {Q : α → KeyPool → Prop}
    (h : Spec allDone (fun p => p.durable = s) m (fun a p => Q a p.durable) (fun _ _ => False)
      fun _ => False) : ∃ a, (settle m s).1 = some a ∧ Q a (settle m s).2 := by
  have hm := h (fun _ _ => .done) (fun _ _ => rfl) ⟨s, []⟩ rfl
  unfold settle
  cases hr : m (fun _ _ => .done) ⟨s, []⟩ with
  | mk out p =>
    rw [hr] at hm
    cases out with
    | returned a => exact ⟨a, rfl, hm⟩
    | raised e => exact hm.elim
    | cut => exact hm.elim

structure HandOutStep where
  command : PoolCommand
  now : ℕ

/-- The pool, what was handed out, and the packages that were reserved, marked, deleted or
consumed. -/
structure HandOutRun where
  pool : KeyPool
  now : ℕ
  handed : List HandedOut
  withdrawn : List PackageId

namespace HandOutRun
variable {host : PoolHost} {r : HandOutRun} {step : HandOutStep}

def start : HandOutRun := ⟨.empty, 0, [], []⟩

def apply (host : PoolHost) (r : HandOutRun) (step : HandOutStep) : HandOutRun :=
  match step.command with
  | .take peer =>
    let out := settle (takePushKeyPackage host step.now peer) r.pool
    ⟨out.2, step.now, r.handed ++ (out.1.map (HandedOut.mk peer)).toList, r.withdrawn⟩
  | command =>
    ⟨(settle (command.perform host step.now) r.pool).2, step.now, r.handed,
      r.withdrawn ++ command.withdraws r.pool.fresh⟩

def enabled (r : HandOutRun) (step : HandOutStep) : Prop := r.now ≤ step.now

def machine (host : PoolHost) : Machine HandOutRun HandOutStep := ⟨apply host, enabled⟩

instance (r : HandOutRun) (step : HandOutStep) : Decidable ((machine host).enabled r step) :=
  inferInstanceAs (Decidable (r.now ≤ step.now))

lemma apply_other (htake : ∀ peer, step.command ≠ .take peer) :
    apply host r step = ⟨(settle (step.command.perform host step.now) r.pool).2, step.now, r.handed,
      r.withdrawn ++ step.command.withdraws r.pool.fresh⟩ := by
  unfold apply
  split
  · rename_i peer h
    exact absurd h (htake peer)
  · rfl

/-- The invariant: the pool is assigned as it was handed out, each package to one peer. -/
structure Settled (r : HandOutRun) : Prop where
  assigned : Assigned r.now r.handed r.withdrawn r.pool
  alone : ∀ x ∈ r.handed, ∀ y ∈ r.handed, x.push.poolExhausted = false →
    y.push.poolExhausted = false → x.push.bundle.packageId = y.push.bundle.packageId →
    x.peer = y.peer

lemma settled_start : start.Settled where
  assigned :=
    { toSound :=
        { filed := nofun
          recorded := fun id h => absurd h (AList.notMem_empty id)
          held := fun id h => absurd h (Finset.notMem_empty id) }
      owned := nofun
      retired := nofun
      apart := fun id _ _ _ _ hb => absurd hb.held (Finset.notMem_empty id)
      few := Nat.zero_le _ }
  alone := nofun

lemma take_handing (host) (r : HandOutRun) (now peer) :
    ∃ push, (settle (takePushKeyPackage host now peer) r.pool).1 = some push ∧
      Handing now peer r.pool push (settle (takePushKeyPackage host now peer) r.pool).2 :=
  settle_spec (take_done peer)

lemma other_moves (h : r.Settled) (he : enabled r step)
    (htake : ∀ peer, step.command ≠ .take peer) :
    Relation.ReflTransGen (Move step.now fun id => step.command.retires id = true) r.pool
        (apply host r step).pool ∧
      Withdrawn step.now (step.command.withdraws r.pool.fresh) (apply host r step).pool := by
  rw [apply_other htake]
  have hlater := h.assigned.later he
  obtain ⟨_, -, hmoves⟩ := settle_spec (Q := fun _ s => _ ∧ _)
    (@perform_moves _ _ host hlater.toSound hlater.few _ htake)
  exact hmoves

lemma apply_settled (h : r.Settled) (he : enabled r step) : (apply host r step).Settled := by
  have hlater := h.assigned.later he
  by_cases htake : ∃ peer, step.command = .take peer
  · obtain ⟨peer, hpeer⟩ := htake
    obtain ⟨push, hpush, hhand⟩ := take_handing host r step.now peer
    have happly : apply host r step = ⟨(settle (takePushKeyPackage host step.now peer) r.pool).2,
        step.now, r.handed ++ [⟨peer, push⟩], r.withdrawn⟩ := by
      unfold apply
      rw [hpeer]
      simp only [hpush]
      rfl
    rw [happly]
    have hmoves : Relation.ReflTransGen (Move step.now fun _ => False) r.pool _ :=
      hhand.moves hlater.toSound
    have hmoved := hlater.moves hmoves
    have husable := hhand.usable hlater.toSound
    -- An earlier hand-out of the same package was to the same peer.
    have hpair (x : HandedOut) (hx : x ∈ r.handed) (hxown : x.push.poolExhausted = false)
        (hown : push.poolExhausted = false)
        (hid : x.push.bundle.packageId = push.bundle.packageId) : x.peer = peer := by
      obtain ⟨hmade, hrec⟩ := hlater.owned x hx hxown
      rcases hhand.origin hlater.toSound with hfresh | ⟨b, hb, hassigned⟩
      · exact absurd (hid.trans hfresh) hmade.ne
      have hpeer' := hrec b (hid ▸ hb.recorded)
      rcases hassigned hown with hfree | hsame
      · rw [hpeer'] at hfree
        cases hfree
      rw [hpeer'] at hsame
      exact Option.some.inj hsame
    refine ⟨{ hmoved with owned := fun x hx hown => ?_ }, fun x hx y hy hxown hyown hid => ?_⟩
    · rcases mem_append.1 hx with hold | hnew
      · exact hmoved.owned x hold hown
      obtain rfl := mem_singleton.1 hnew
      refine ⟨hmoved.recorded _ (mem_of_get husable.recorded), fun b hget => ?_⟩
      rw [← Option.some.inj (husable.recorded.symm.trans hget)]
      exact hhand.assigned hown
    · rcases mem_append.1 hx with hxold | hxnew
      · rcases mem_append.1 hy with hyold | hynew
        · exact h.alone x hxold y hyold hxown hyown hid
        obtain rfl := mem_singleton.1 hynew
        exact hpair x hxold hxown hyown hid
      · obtain rfl := mem_singleton.1 hxnew
        rcases mem_append.1 hy with hyold | hynew
        · exact (hpair y hyold hyown hxown hid.symm).symm
        · rw [mem_singleton.1 hynew]
  · have hother : ∀ peer, step.command ≠ .take peer := fun peer hp => htake ⟨peer, hp⟩
    obtain ⟨hmoves, hwith⟩ := @other_moves host _ _ h he hother
    have hmoved := hlater.moves hmoves
    rw [apply_other hother] at hmoved hwith ⊢
    exact ⟨{ hmoved with retired := forall_mem_append.2 ⟨hmoved.retired, hwith⟩ }, h.alone⟩

lemma settled_of_runs (h : (machine host).Runs start steps r) : r.Settled :=
  h.invariant (C := fun _ _ => True) (fun _ _ hr he _ => apply_settled hr he)
    (Machine.along_of_forall fun _ _ _ => trivial) settled_start

/-- A package that is assigned and usable stays so over steps that do not withdraw it, until
it expires. -/
lemma apply_keeps (h : r.Settled) (he : enabled r step) {id : PackageId} {b}
    (hb : r.pool.Usable step.now id b) (hassigned : b.assignedPeer ≠ none)
    (hid : step.command.retires id = false) : (apply host r step).pool.Usable step.now id b := by
  have hlater := h.assigned.later he
  by_cases htake : ∃ peer, step.command = .take peer
  · obtain ⟨peer, hpeer⟩ := htake
    obtain ⟨push, -, hhand⟩ := take_handing host r step.now peer
    have happly : (apply host r step).pool =
        (settle (takePushKeyPackage host step.now peer) r.pool).2 := by
      unfold apply
      rw [hpeer]
    rw [happly]
    have hmoves : Relation.ReflTransGen (Move step.now fun _ => False) r.pool _ :=
      hhand.moves hlater.toSound
    exact usable_moves hlater hmoves hb hassigned fun h => h
  · have hother : ∀ peer, step.command ≠ .take peer := fun peer hp => htake ⟨peer, hp⟩
    obtain ⟨hmoves, -⟩ := @other_moves host _ _ h he hother
    exact usable_moves hlater hmoves hb hassigned (by simp [hid])

@[simp] lemma apply_now : (apply host r step).now = step.now := by
  unfold apply
  split <;> rfl

lemma runs_now (h : (machine host).Runs r steps r') :
    r.now ≤ r'.now ∧ ∀ step ∈ steps, step.now ≤ r'.now := by
  obtain ⟨hrepl, henabled⟩ := h
  induction steps generalizing r with
  | nil =>
    obtain rfl : r = r' := hrepl
    exact ⟨le_rfl, nofun⟩
  | cons e es ih =>
    obtain ⟨hle, hall⟩ := ih hrepl henabled.2
    have hnow : e.now ≤ r'.now := by
      have happly : ((machine host).apply r e).now = e.now := apply_now
      omega
    exact ⟨le_trans henabled.1 hnow, forall_mem_cons.2 ⟨hnow, hall⟩⟩

lemma runs_keeps (hr : r.Settled) (h : (machine host).Runs r steps r') {id : PackageId}
    (hb : r.pool.Usable r.now id b) (hassigned : b.assignedPeer ≠ none)
    (hsteps : ∀ e ∈ steps, e.command.retires id = false) (hlife : r'.now < b.expiresAtMs) :
    r'.pool.Usable r'.now id b := by
  have hall : (machine host).Along
      (fun _ e => e.command.retires id = false ∧ e.now < b.expiresAtMs) r steps :=
    Machine.along_of_forall fun e hin _ =>
      ⟨hsteps e hin, ((runs_now h).2 e hin).trans_lt hlife⟩
  refine (h.invariant (I := fun r => r.Settled ∧ r.pool.Usable r.now id b)
    (fun r e hr he hc => ⟨apply_settled hr.1 he, ?_⟩) hall ⟨hr, hb⟩).2
  have hb' : r.pool.Usable e.now id b :=
    ⟨hr.2.recorded, decide_eq_false (not_le.2 hc.2), hr.2.held, hr.2.offered⟩
  have hkept := @apply_keeps host _ _ hr.1 he _ _ hb' hassigned hc.1
  show (apply host r e).pool.Usable (apply host r e).now id b
  rwa [apply_now]

end HandOutRun

/-- In every run a package handed out alone goes to one peer, which gets it again until it is
marked, deleted, consumed or expires; a shared one is handed out only at the ceiling, when none is
unclaimed. -/
theorem push_packages_assigned {host : PoolHost} {steps : List HandOutStep} {r : HandOutRun}
    (h : (HandOutRun.machine host).Runs .start steps r) :
    (∀ x ∈ r.handed, ∀ y ∈ r.handed, x.push.poolExhausted = false →
      y.push.poolExhausted = false → x.push.bundle.packageId = y.push.bundle.packageId →
      x.peer = y.peer) ∧
    (∀ now, r.now ≤ now → (r.pool.handable host now).length ≤ maxPushKeyPackages) ∧
    (∀ now peer, r.now ≤ now → ∃ push s,
      settle (takePushKeyPackage host now peer) r.pool = (some push, s) ∧
        get s.records push.bundle.packageId = some push.bundle ∧
        push.bundle.packageId ∈ s.initKeys ∧ now < push.bundle.expiresAtMs ∧
        push.bundle.reservedForPublication = false ∧ push.bundle.synced = false ∧
        push.bundle.packageId ∉ r.withdrawn ∧
        (push.poolExhausted = true → (r.pool.handable host now).length = maxPushKeyPackages ∧
          ∀ b ∈ r.pool.handable host now, b.assignedPeer ≠ none ∧ b.assignedPeer ≠ some peer)) ∧
    ∀ before t peer between, steps = before ++ ⟨.take peer, t⟩ :: between → ∀ push,
      (settle (takePushKeyPackage host t peer)
        ((HandOutRun.machine host).replay .start before).pool).1 = some push →
      push.poolExhausted = false →
      (∀ e ∈ between, e.command.retires push.bundle.packageId = false) →
      ∀ now, r.now ≤ now → now < push.bundle.expiresAtMs →
        (settle (takePushKeyPackage host now peer) r.pool).1 = some push := by
  have hr := HandOutRun.settled_of_runs h
  refine ⟨hr.alone, fun now hle => ?_, fun now peer hle => ?_, ?_⟩
  · rw [length_handable]
    exact (hr.assigned.later hle).few
  · have hlater := hr.assigned.later hle
    obtain ⟨push, hpush, hhand⟩ := HandOutRun.take_handing host r now peer
    have husable := hhand.usable hlater.toSound
    have hoffered := husable.offered
    simp only [KeyPackageBundle.withheldFromHandOut, Bool.or_eq_false_iff] at hoffered
    refine ⟨push, _, Prod.ext hpush rfl, husable.recorded, husable.held,
      not_le.1 (of_decide_eq_false husable.unexpired), hoffered.1, hoffered.2, fun hin => ?_,
      fun hfull => ?_⟩
    · obtain ⟨hmade, hnone⟩ := hlater.retired _ hin
      rcases hhand.origin hlater.toSound with hfresh | ⟨b, hb, -⟩
      · exact hmade.ne hfresh
      · exact hnone b hb
    · obtain ⟨hmany, hnone⟩ := hhand.exhausted hfull
      rw [length_handable]
      refine ⟨le_antisymm hlater.few hmany, fun b hin => ?_⟩
      obtain ⟨id, hb⟩ := mem_handable.1 hin
      exact hnone id b hb
  · rintro before t peer between rfl push hpush hown hbetween now hle hlife
    obtain ⟨hbefore, he, hafter⟩ := h.split
    have hr₁ := HandOutRun.settled_of_runs hbefore
    have hlater₁ := hr₁.assigned.later he
    -- Right after the first call the package is usable and the peer's own.
    obtain ⟨first, hfirst, hhand⟩ := HandOutRun.take_handing host
      ((HandOutRun.machine host).replay .start before) t peer
    rw [Option.some.inj (hfirst.symm.trans hpush)] at hhand
    have hassigned := hhand.assigned hown
    have hkept := HandOutRun.runs_keeps (HandOutRun.apply_settled hr₁ he) hafter
      (hhand.usable hlater₁.toSound) (by simp [hassigned]) hbetween (by omega)
    have husable : r.pool.Usable now push.bundle.packageId push.bundle :=
      ⟨hkept.recorded, decide_eq_false (not_le.2 hlife), hkept.held, hkept.offered⟩
    obtain ⟨again, hagain, hhand'⟩ := HandOutRun.take_handing host r now peer
    rw [hagain, hhand'.same (hr.assigned.later hle) husable hassigned, ← hown]

def HandOutStep.twoPeers : List HandOutStep :=
  [⟨.take 1, 0⟩, ⟨.take 2, 5⟩, ⟨.publish, 6⟩, ⟨.welcome 0, 7⟩]

theorem push_packages_assigned_twoPeers :
    let r := (HandOutRun.machine filedHost).replay .start HandOutStep.twoPeers
    (settle (takePushKeyPackage filedHost 9 2) r.pool).1 =
      some ⟨{ KeyPackageBundle.minted 1 5 false with assignedPeer := some 2 }, false⟩ :=
  (push_packages_assigned (r := (HandOutRun.machine filedHost).replay .start HandOutStep.twoPeers)
    ⟨rfl, by decide +kernel⟩).2.2.2 [⟨.take 1, 0⟩] 5 2 [⟨.publish, 6⟩, ⟨.welcome 0, 7⟩] rfl _
    (by decide +kernel) rfl (by decide) 9 (by decide +kernel) (by decide)

def HandOutStep.fullHouse : List HandOutStep :=
  (range 64).map (fun peer => ⟨.take peer, 0⟩) ++ [⟨.take 64, 0⟩, ⟨.welcome 0, 1⟩]

/-- A package that is shared at the ceiling is not what the peer gets again: once another
package is used up, the next call makes one for the peer. -/
theorem shared_package_replaced :
    ∃ r, (HandOutRun.machine filedHost).Runs .start HandOutStep.fullHouse r ∧
      (∃ x ∈ r.handed, x.peer = 64 ∧ x.push.poolExhausted = true ∧ x.push.bundle.packageId = 63) ∧
      63 ∉ r.withdrawn ∧
      (settle (takePushKeyPackage filedHost 2 64) r.pool).1.map
        (fun again => again.bundle.packageId) = some 64 :=
  ⟨_, ⟨rfl, by decide +kernel⟩, by decide +kernel⟩

end OfflineProtocol
