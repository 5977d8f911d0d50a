import OfflineProtocol.CustodyRefinement
import Mathlib.Algebra.Order.Group.Multiset
import Mathlib.Tactic.Abel

/-! The flush refines the abstract history, and with it every operation of the
engine and every run. -/
namespace OfflineProtocol
open KeyedTable EventTrace MeshState MeshRelayGovernor List

lemma RelaySeenCache.forget_relays (c : RelaySeenCache) (rs : List PendingRelay) :
    let c' := rs.foldl (fun c relay => c.forget relay.message.id) c
    c'.config = c.config ∧ (∀ clock, c.WellFormed clock → c'.WellFormed clock) ∧
      ∀ y, get c'.entries y = if y ∈ rs.map (·.message.id) then none else get c.entries y := by
  induction rs generalizing c with
  | nil => simp
  | cons r rs ih =>
    obtain ⟨hc, hw, hg⟩ := ih (c.forget r.message.id)
    refine ⟨hc.trans forget_config, fun clock h => hw clock (h.forget _), fun y => ?_⟩
    rw [foldl_cons, hg, get_forget]
    by_cases hy : y = r.message.id <;> by_cases hys : y ∈ rs.map (·.message.id) <;> simp [hy, hys]

namespace MeshEngine
variable {F : Type*} [AirArith F] {config : MeshRelayConfig F} {e : MeshEngine F}
omit [AirArith F] in
lemma release_split {keep due abandoned : List PendingRelay} :
    (keep ++ (due ++ abandoned)).Perm (abandoned.filter (·.custodyTarget.isNone) ++
      (keep ++ (abandoned.filter (·.custodyTarget.isSome) ++ due))) := by
  have hmark : abandoned.filter (·.custodyTarget.isSome) =
      abandoned.filter fun p => !p.custodyTarget.isNone :=
    filter_congr fun p _ => (Option.not_isNone p.custodyTarget).symm
  have hsplit := filter_append_perm (fun p => p.custodyTarget.isNone) abandoned
  rw [← hmark, ← Multiset.coe_eq_coe] at hsplit
  rw [← Multiset.coe_eq_coe]
  simp only [← Multiset.coe_add] at hsplit ⊢
  rw [← hsplit]
  abel

/-- The release takes the due forwards and the abandoned ones off the queue;
the ordinary abandoned ones are settled on the spot. -/
lemma releaseDue_tracks (h : Sound config e) :
    let r := e.mesh.releaseDue e.clock
    Follows config e [] r.2.2.2 { e with mesh := r.1 }
        (r.2.2.1.filter (·.custodyTarget.isSome) ++ r.2.1) := by
  set g0 : MeshRelayGovernor F := { e.mesh with seen := e.mesh.seen.expire e.clock, pending := [] }
  have hperm := releaseLoop_perm e.clock g0 e.mesh.pending
  obtain ⟨hcfg, hseen⟩ := releaseLoop_seen e.clock g0 e.mesh.pending
  set r := releaseLoop e.clock g0 e.mesh.pending
  obtain ⟨hfc, hfw, hfg⟩ := RelaySeenCache.forget_relays (e.mesh.seen.expire e.clock)
    (r.abandoned.filter (·.custodyTarget.isNone))
  have hlen : r.keep.length ≤ e.mesh.pending.length := by
    rw [← hperm.length_eq, length_append]
    exact Nat.le_add_right _ _
  refine ⟨⟨hcfg.trans h.config_eq, ?_, ?_, h.balanced, hlen.trans h.queue_le⟩, fun past => ?_⟩
  · change r.governor.seen.config.retention = _
    rw [hseen, hfc]
    exact h.retention_eq
  · change r.governor.seen.WellFormed _
    rw [hseen]
    exact hfw _ (h.seen.expire e.clock)
  have hen : (meshMachine config.seen.retention).enabled (e.abs [] past) .expired := trivial
  refine ((Machine.runs_single hen).append (runs_abandoned _
    (r.abandoned.filter (·.custodyTarget.isNone))
    (↑(r.keep ++ (r.abandoned.filter (·.custodyTarget.isSome) ++ r.due))) ?_ ?_)).to ?_
  · refine Multiset.coe_eq_coe.2 ?_
    rw [append_nil]
    exact hperm.symm.trans release_split
  · intro p hp
    have := (mem_filter.1 hp).2
    exact Option.isNone_iff_eq_none.1 this
  refine ext rfl rfl (fun y => ?_) (fun _ => rfl) ?_
  · change _ = get r.governor.seen.entries y
    rw [hseen, hfg, RelaySeenCache.get_expire h.seen, h.retention_eq]
    rfl
  simp
  rfl

omit [AirArith F] in
lemma recordForwarded_sameQueue (g : MeshRelayGovernor F) :
    SameQueue g g.recordForwarded := ⟨rfl, rfl, rfl⟩

omit [AirArith F] in
lemma observeActivity_sameQueue {g : MeshRelayGovernor F} {now} :
    SameQueue g (g.observeActivity now).1 := by
  simp only [observeActivity]
  split_ifs <;> exact ⟨rfl, rfl, rfl⟩

lemma sendLoop_single (now direct recipient target) (g : MeshRelayGovernor F) (sends) :
    let out := sendLoop now direct recipient g sends [target]
    out.deliveredTo = [] ∨ (out.deliveredTo = [target] ∧
      out.reachedRecipient = (direct && decide (target = recipient))) := by
  simp only [sendLoop]
  split_ifs with h1 h2 h3
  · exact .inl rfl
  · exact .inr ⟨rfl, h3.symm⟩
  · exact .inr ⟨rfl, by simpa using h3⟩
  · exact .inl rfl

lemma targetsFor_marked (host) (g : MeshRelayGovernor F)
    (neighbors) (h : relay.custodyTarget = some target) :
    targetsFor host g neighbors relay = [target] ∨ targetsFor host g neighbors relay = [] := by
  simp only [targetsFor, h]
  split_ifs
  · exact .inl rfl
  · exact .inr rfl

omit [AirArith F] in
lemma coe_settle {pending rest : List PendingRelay} :
    (↑(pending ++ rest) : Multiset PendingRelay) =
      (↑(pending ++ relay :: rest) : Multiset PendingRelay).erase relay := by
  rw [Multiset.coe_eq_coe.2 perm_middle, ← Multiset.cons_coe, Multiset.erase_cons_head]

omit [AirArith F] in
lemma mem_in_hand {e : MeshEngine F}
    {past} : relay ∈ (e.abs (relay :: rest) past).waiting :=
  Multiset.mem_coe.2 (mem_append_right _ (.head _))

omit [AirArith F] in
lemma handBack_tracks (h : Sound config e) (relay) (rest : List PendingRelay) :
    Follows config e (relay :: rest)
      (e.handBack relay).2 (e.handBack relay).1 rest := by
  simp only [handBack, requeue]
  split_ifs with hfull hm
  · exact returnHeldToStore_tracks h hm
  · have ho : relay.Ordinary := PendingRelay.not_marked_iff.1 hm
    refine ⟨⟨h.config_eq, ?_, h.seen.forget _, h.balanced, h.queue_le⟩,
      tracks_event (fun past => ⟨mem_in_hand, ho⟩) rfl ?_ (fun y => ?_)
        fun _ => rfl⟩
    · rw [← h.retention_eq]
      exact congrArg RelaySeenConfig.retention RelaySeenCache.forget_config
    · exact coe_settle
    simp only [effect, MeshState.settle, forget, abs,
      RelaySeenCache.get_forget, Function.update_apply]
  · refine ⟨⟨h.config_eq, h.retention_eq, h.seen, h.balanced, ?_⟩,
      tracks_silent rfl ?_ (fun _ => rfl) fun _ => rfl⟩
    · rw [h.config_eq] at hfull
      simp
      omega
    rw [append_assoc]
    exact .refl _

omit [AirArith F] in
lemma recordCustodyTransmission_tracks (h : Sound config e)
    (rest : List PendingRelay) (htarg : relay.custodyTarget = some peer)
    (hreached : reached = decide (peer = relay.message.recipient)) :
    let r := e.recordCustodyTransmission relay peer reached
    Follows config e (relay :: rest) r.2 r.1 rest := by
  unfold recordCustodyTransmission
  split_ifs with hr
  · rw [hreached, decide_eq_true_eq] at hr
    refine ⟨⟨h.config_eq, h.retention_eq, h.seen, h.balanced.removeInner, h.queue_le⟩,
      tracks_event (fun past => ⟨mem_in_hand, htarg, hr⟩) rfl
        coe_settle (fun _ => rfl) fun y => ?_⟩
    simp only [effect, MeshState.settle, onHeld, abs, Function.update_apply,
      CustodyStore.recordDelivered, CustodyStore.get_removeInner]
  · rw [hreached, decide_eq_true_eq] at hr
    refine ⟨⟨h.config_eq, h.retention_eq, h.seen,
      h.balanced.modify _ (fun _ => rfl) (fun _ => rfl) fun _ => rfl, h.queue_le⟩,
      tracks_event (fun past => ⟨mem_in_hand, htarg, hr⟩) rfl
        coe_settle (fun _ => rfl) fun y => ?_⟩
    simp only [effect, MeshState.settle, onHeld, abs, Function.update_apply,
      CustodyStore.recordReOriginated, get_modify]

section
variable (h : Sound config e)
include h

lemma flushRelay_tracks (host) (neighbors : List MeshNeighbor) (sends relay rest) :
    let r := e.flushRelay host neighbors sends relay
    Follows config e (relay :: rest) r.2.2 r.1 rest := by
  set targets := targetsFor host e.mesh neighbors relay with htarget
  set direct := decide (targets.head? = some relay.message.recipient) with hdir
  set out := sendLoop e.clock direct relay.message.recipient e.mesh sends targets with hout
  have hsame : SameQueue e.mesh out.mesh :=
    sendLoop_sameQueue _ _ _ _ _ _
  have hsound := h.sameQueue hsame
  have hsent : Tracks config.seen.retention e (relay :: rest) [] _ (relay :: rest) :=
    tracks_sameQueue hsame
  simp only [flushRelay, ← htarget, ← hdir, ← hout]
  split_ifs with hcovered hm
  · obtain ⟨-, hnone, hheard⟩ := hcovered
    have ho : relay.Ordinary := Option.isNone_iff_eq_none.1 hnone
    exact ⟨h, tracks_event (fun past => ⟨mem_in_hand, ho, hheard⟩) rfl
      coe_settle (fun _ => rfl) fun _ => rfl⟩
  · cases hd : out.deliveredTo with
    | nil =>
      obtain ⟨hs, ht⟩ := handBack_tracks hsound relay rest
      exact ⟨hs, hsent.trans ht⟩
    | cons peer peers =>
      -- A marked forward has one target, and reaching it decides where it went.
      obtain ⟨target, htarg⟩ := Option.isSome_iff_exists.1 hm
      have hone : peer = target ∧ out.reachedRecipient = decide (peer = relay.message.recipient) := by
        rcases targetsFor_marked host e.mesh neighbors htarg with ht | ht
        · rw [hout, htarget, ht] at hd ⊢
          rcases sendLoop_single e.clock direct relay.message.recipient target e.mesh sends with
            hz | ⟨hz, hreach⟩
          · rw [hz] at hd
            cases hd
          rw [hz] at hd
          obtain ⟨rfl, -⟩ := cons.inj hd
          refine ⟨rfl, hreach.trans ?_⟩
          rw [hdir, htarget, ht]
          simp
        · rw [hout, htarget, ht] at hd
          cases hd
      obtain ⟨rfl, hreached⟩ := hone
      obtain ⟨hs, ht⟩ := recordCustodyTransmission_tracks hsound rest htarg hreached
      have hfwd : SameQueue
          (MeshEngine.recordCustodyTransmission { e with mesh := out.mesh } relay peer
            out.reachedRecipient).1.mesh _ := recordForwarded_sameQueue _
      have htrack := (hsent.trans ht).trans (tracks_sameQueue hfwd)
      rw [append_nil] at htrack
      exact ⟨hs.sameQueue hfwd, htrack⟩
  · cases hd : out.deliveredTo with
    | nil =>
      obtain ⟨hs, ht⟩ := handBack_tracks hsound relay rest
      exact ⟨hs, hsent.trans ht⟩
    | cons peer peers =>
      have ho : relay.Ordinary := PendingRelay.not_marked_iff.1 hm
      have hfwd := recordForwarded_sameQueue out.mesh
      refine ⟨hsound.sameQueue hfwd, hsent.trans ?_⟩
      exact tracks_event
        (fun past => ⟨mem_in_hand, ho, cons_ne_nil peer peers⟩) rfl
        coe_settle (fun _ => rfl) fun _ => rfl

lemma flushLoop_tracks (host neighbors) (sends due) :
    Follows config e due (flushLoop host neighbors e sends due).2
        (flushLoop host neighbors e sends due).1 [] := by
  induction due generalizing e sends with
  | nil => exact ⟨h, tracks_refl⟩
  | cons relay rest ih =>
    obtain ⟨hs, ht⟩ := flushRelay_tracks h host neighbors sends relay rest
    obtain ⟨hs', ht'⟩ := ih hs (e.flushRelay host neighbors sends relay).2.1
    exact ⟨hs', ht.trans ht'⟩

lemma flushMeshRelaysAt_tracks : Follows config e [] (e.flushMeshRelaysAt host env).2
        (e.flushMeshRelaysAt host env).1 [] := by
  obtain ⟨hr, htr⟩ := releaseDue_tracks h
  obtain ⟨hd, htd⟩ := dropPointLoop_tracks hr env (e.mesh.releaseDue e.clock).2.2.1
    (e.mesh.releaseDue e.clock).2.1
  obtain ⟨hf, htf⟩ := flushLoop_tracks hd host env.neighbors env.sends
    (e.mesh.releaseDue e.clock).2.1
  exact ⟨hf, htr.trans (htd.trans htf)⟩

lemma perform_tracks (host op) :
    Follows config e [] (e.perform host op).2 (e.perform host op).1 [] := by
  have hsame : ∀ {g : MeshRelayGovernor F}, SameQueue e.mesh g →
      Follows config e [] [] { e with mesh := g } [] :=
    fun hg => ⟨h.sameQueue hg, tracks_sameQueue hg⟩
  cases op with
  | admitMessage message arrival degree => exact admit_tracks h host message arrival degree
  | tryRelay message arrival degree relayAllowed batteryOk =>
    exact tryRelayMessage_tracks h host message arrival degree
  | redeliver peer linked relayAllowed batteryOk =>
    exact redeliverCustodyTo_tracks h
  | flush env => exact flushMeshRelaysAt_tracks h
  | judge candidate => exact judge_tracks h [] candidate
  | sweep nowMs => exact sweepCustodyNow_tracks h
  | erase => exact eraseCustody_tracks h
  | markHandled id => exact markHandled_tracks h
  | maintain => exact maintain_tracks h
  | setConditions conditions => exact hsame ⟨rfl, rfl, rfl⟩
  | setLocalId localId => exact hsame ⟨rfl, rfl, rfl⟩
  | observeActivity => exact hsame observeActivity_sameQueue
  | forceInactive => exact hsame ⟨rfl, rfl, rfl⟩
  | takeOwnSendToken => exact hsame ⟨rfl, rfl, rfl⟩
  | forgetPeer peer => exact hsame ⟨rfl, rfl, rfl⟩

lemma step_tracks (s) :
    Follows config e [] (e.step s).2 (e.step s).1 [] := by
  have hle : e.clock ≤ e.clock + s.elapsed := Nat.le_add_right _ _
  have hs : Sound config { e with clock := e.clock + s.elapsed } :=
    ⟨h.config_eq, h.retention_eq, h.seen.mono hle, h.balanced, h.queue_le⟩
  obtain ⟨hp, ht⟩ := perform_tracks hs s.host s.op
  have htick : Tracks config.seen.retention e [] [.tick (e.clock + s.elapsed)]
      { e with clock := e.clock + s.elapsed } [] :=
    tracks_event (fun _ => hle) rfl rfl (fun _ => rfl) fun _ => rfl
  exact ⟨hp, htick.trans ht⟩

end

lemma start_abs (localId) (config : MeshRelayConfig F)
    (custody) : (start localId config custody).abs [] [] = MeshState.start :=
  ext rfl rfl (fun _ => rfl) (fun _ => rfl) rfl

lemma start_sound {localId} {config : MeshRelayConfig F} {custody} :
    Sound config (start localId config custody) where
  config_eq := rfl
  retention_eq := rfl
  seen := ⟨⟨nodup_nil, fun x => by simp [start, withConfig,
      RelaySeenCache.withConfig], Pairwise.nil⟩, fun x t hx => by
    simp [start, withConfig, RelaySeenCache.withConfig] at hx⟩
  balanced := CustodyStore.new_balanced custody
  queue_le := Nat.zero_le _

/-- The state and the history a sequence of steps leads to from an empty
governor and an empty store. -/
def run (localId : String) (config : MeshRelayConfig F) (custody : CustodyConfig)
    (steps : List Step) : MeshEngine F × List MeshEvent :=
  runSteps step (start localId config custody) steps

lemma run_refines (localId) (config : MeshRelayConfig F) (custody) (steps) :
    let r := run localId config custody steps
    Sound config r.1 ∧
      (meshMachine config.seen.retention).Runs MeshState.start r.2 (r.1.abs [] r.2) := by
  have hstep : ∀ (w : MeshEngine F) (s : Step), Sound config w → Sound config (w.step s).1 ∧
      ∀ past, (meshMachine config.seen.retention).Runs (w.abs [] past) (w.step s).2
        ((w.step s).1.abs [] (past ++ (w.step s).2)) := fun w s hw => step_tracks hw s
  obtain ⟨hs, hr⟩ := runSteps_simulated hstep (start localId config custody)
    start_sound steps
  refine ⟨hs, ?_⟩
  have h := hr []
  rwa [start_abs, nil_append] at h

end MeshEngine

end OfflineProtocol
