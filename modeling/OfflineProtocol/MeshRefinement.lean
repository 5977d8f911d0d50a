import OfflineProtocol.CustodyEviction
import OfflineProtocol.GovernorFrame
import OfflineProtocol.MeshTrace

/-! The engine refines the abstract forwarding history: from a sound engine
state every operation's events can occur, and replaying them leads from the
abstraction of the state before to the abstraction of the state after. -/
namespace OfflineProtocol
open KeyedTable EventTrace RelaySeenCache MeshState MeshRelayGovernor Multiset Machine List

namespace MeshState
variable {retention : ℕ}

lemma runs_capacityDropped (s) (xs : List MessageId) :
    (meshMachine retention).Runs s (xs.map .capacityDropped) { s with
        seen := fun y => if y ∈ xs then none else s.seen y
        past := s.past ++ xs.map .capacityDropped } := by
  induction xs generalizing s with
  | nil => simpa using runs_nil
  | cons x xs ih =>
    refine (Runs.cons trivial (ih _)).to ?_
    refine ext rfl rfl (fun y => ?_) (fun _ => rfl) (by simp)
    by_cases hy : y = x <;> by_cases hys : y ∈ xs <;> simp [effect, forget, hy, hys]

lemma runs_dropped (s) (xs : List MessageId) :
    (meshMachine retention).Runs s (xs.map .dropped) { s with
        held := fun y => if y ∈ xs then none else s.held y
        past := s.past ++ xs.map .dropped } := by
  induction xs generalizing s with
  | nil => simpa using runs_nil
  | cons x xs ih =>
    refine (Runs.cons trivial (ih _)).to ?_
    refine ext rfl rfl (fun _ => rfl) (fun y => ?_) (by simp)
    by_cases hy : y = x <;> by_cases hys : y ∈ xs <;> simp [effect, onHeld, hy, hys]

lemma runs_abandoned (s) (rs : List PendingRelay) (rest)
    (hw : s.waiting = (rs : Multiset PendingRelay) + rest) (ho : ∀ r ∈ rs, r.Ordinary) :
    (meshMachine retention).Runs s (rs.map .abandoned) { s with
        waiting := rest
        seen := fun y => if y ∈ rs.map (·.message.id) then none else s.seen y
        past := s.past ++ rs.map .abandoned } := by
  induction rs generalizing s with
  | nil =>
    have hw' : rest = s.waiting := by simpa using hw.symm
    simpa [hw'] using runs_nil
  | cons r rs ih =>
    have hcons : s.waiting = r ::ₘ ((rs : Multiset PendingRelay) + rest) := by
      rw [hw, ← cons_coe, cons_add]
    have hmem : r ∈ s.waiting := by rw [hcons]; exact mem_cons_self _ _
    have hnext := ih ((meshMachine retention).apply s (.abandoned r))
      (by simp [effect, settle, forget, hcons]) (fun q hq => ho q (.tail _ hq))
    have hen : (meshMachine retention).enabled s (.abandoned r) :=
      ⟨hmem, ho r (.head _)⟩
    refine (Runs.cons hen hnext).to ?_
    refine ext rfl rfl (fun y => ?_) (fun _ => rfl) (by simp)
    by_cases hy : y = r.message.id <;> by_cases hys : y ∈ rs.map (·.message.id) <;>
      simp [effect, settle, forget, hy, hys]

end MeshState

namespace MeshEngine
variable {F : Type*} {retention : ℕ} {e e' e'' : MeshEngine F}
  {extra extra' extra'' : List PendingRelay}

/-- The abstraction of an engine that has taken the forwards `extra` off its
queue and not yet settled them. -/
def abs (e : MeshEngine F) (extra : List PendingRelay) (past : List MeshEvent) : MeshState where
  now := e.clock
  waiting := ↑(e.mesh.pending ++ extra)
  seen := get e.mesh.seen.entries
  held := get e.custody.entries
  past := past

/-- The events `es` lead from one engine state to the other, whatever came
before. -/
def Tracks (retention : ℕ) (e : MeshEngine F) (extra : List PendingRelay) (es : List MeshEvent)
    (e' : MeshEngine F) (extra' : List PendingRelay) : Prop :=
  ∀ past, (meshMachine retention).Runs (e.abs extra past) es (e'.abs extra' (past ++ es))

/-- What the operations rely on and keep: an ordered suppression cache, balanced
custody accounts, and a queue within its capacity. -/
structure Sound (config : MeshRelayConfig F) (e : MeshEngine F) : Prop where
  config_eq : e.mesh.config = config
  retention_eq : e.mesh.seen.config.retention = config.seen.retention
  seen : e.mesh.seen.WellFormed e.clock
  balanced : e.custody.Balanced
  queue_le : e.mesh.pending.length ≤ config.queueCapacity

/-- From `e` to `e'` the code kept `Sound` and its events `es` are a run of the machine. -/
abbrev Follows (config : MeshRelayConfig F) (e : MeshEngine F) (extra es e' extra') :=
  Sound config e' ∧ Tracks config.seen.retention e extra es e' extra'

lemma abs_congr {past} (hc : e'.clock = e.clock)
    (hp : (e'.mesh.pending ++ extra').Perm (e.mesh.pending ++ extra))
    (hs : ∀ y, get e'.mesh.seen.entries y = get e.mesh.seen.entries y)
    (hh : ∀ y, get e'.custody.entries y = get e.custody.entries y) :
    e'.abs extra' past = e.abs extra past :=
  ext hc (coe_eq_coe.2 hp) hs hh rfl

lemma tracks_silent (hc : e'.clock = e.clock)
    (hp : (e'.mesh.pending ++ extra').Perm (e.mesh.pending ++ extra))
    (hs : ∀ y, get e'.mesh.seen.entries y = get e.mesh.seen.entries y)
    (hh : ∀ y, get e'.custody.entries y = get e.custody.entries y) :
    Tracks retention e extra [] e' extra' := by
  intro past
  rw [append_nil, abs_congr hc hp hs hh]
  exact runs_nil

lemma tracks_refl {e : MeshEngine F} {extra : List PendingRelay} :
    Tracks retention e extra [] e extra :=
  tracks_silent rfl (.refl _) (fun _ => rfl) fun _ => rfl

lemma Tracks.trans (h : Tracks retention e extra es e' extra')
    (h' : Tracks retention e' extra' fs e'' extra'') :
    Tracks retention e extra (es ++ fs) e'' extra'' := by
  intro past
  have := (h past).append (h' (past ++ es))
  rwa [append_assoc] at this

lemma effect_past (s : MeshState) (past ev) :
    ({ s with past := past } : MeshState).effect retention ev =
      { s.effect retention ev with past := past } := by
  cases ev <;> rfl

/-- One occurrence, checked field by field. -/
lemma tracks_event (hen : ∀ past, (e.abs extra past).Enabled retention ev)
    (hc : e'.clock = ((e.abs extra []).effect retention ev).now)
    (hp : (↑(e'.mesh.pending ++ extra') : Multiset PendingRelay) =
      ((e.abs extra []).effect retention ev).waiting)
    (hs : ∀ y, get e'.mesh.seen.entries y = ((e.abs extra []).effect retention ev).seen y)
    (hh : ∀ y, get e'.custody.entries y = ((e.abs extra []).effect retention ev).held y) :
    Tracks retention e extra [ev] e' extra' := by
  intro past
  refine (runs_single (hen past)).to ?_
  have heff : (e.abs extra past).effect retention ev =
      { (e.abs extra []).effect retention ev with past := past } :=
    effect_past (e.abs extra []) past ev
  refine ext ?_ ?_ ?_ ?_ rfl
  · rw [apply_now, heff]; exact hc.symm
  · rw [apply_waiting, heff]; exact hp.symm
  · intro y; rw [apply_seen, heff]; exact (hs y).symm
  · intro y; rw [apply_held, heff]; exact (hh y).symm

variable {config : MeshRelayConfig F}

section
variable (h : Sound config e)
include h

lemma Sound.sameQueue (hg : SameQueue e.mesh g) : Sound config { e with mesh := g } :=
  ⟨hg.config.trans h.config_eq, by rw [hg.seen]; exact h.retention_eq,
    by rw [hg.seen]; exact h.seen, h.balanced, by rw [hg.pending]; exact h.queue_le⟩

omit h in
lemma tracks_sameQueue (hg : SameQueue e.mesh g) :
    Tracks retention e extra [] { e with mesh := g } extra :=
  tracks_silent rfl (by rw [hg.pending]) (fun y => by rw [hg.seen]) fun _ => rfl

lemma makeRoom_tracks (extra : List PendingRelay)
    (hr : e.mesh.makeRoom message e.clock = some r) :
    Follows config e extra r.2 { e with mesh := r.1 } extra := by
  have hle : e.mesh.pending.length ≤ e.mesh.config.queueCapacity := by
    rw [h.config_eq]; exact h.queue_le
  have hslot := makeRoom_slot hr hle
  rcases makeRoom_cases hr with ⟨rfl, -⟩ | ⟨victim, hv, rfl⟩
  · exact ⟨h, tracks_refl⟩
  refine ⟨⟨h.config_eq, ?_, h.seen.forget _, h.balanced, ?_⟩, tracks_event ?_ rfl ?_ ?_ ?_⟩
  · rw [← h.retention_eq]
    exact congrArg RelaySeenConfig.retention forget_config
  · simp only [h.config_eq] at hslot
    exact hslot.le
  · intro past
    exact mem_coe.2 (mem_append_left _ hv)
  · simp only [effect, MeshState.settle, MeshState.forget, abs, coe_erase, erase_append_left _ hv]
  · intro y
    simp only [effect, MeshState.settle, MeshState.forget, abs, get_forget, Function.update_apply]
  · exact fun _ => rfl

lemma runs_before_recording (extra) (past) (xs : List MessageId) :
    (meshMachine config.seen.retention).Runs (e.abs extra past)
      (.expired :: xs.map .capacityDropped) { e.abs extra past with
        seen := fun y => if y ∈ xs then none else get (e.mesh.seen.expire e.clock).entries y
        past := past ++ .expired :: xs.map .capacityDropped } := by
  refine (Runs.cons trivial (runs_capacityDropped _ xs)).to ?_
  refine ext rfl rfl (fun y => ?_) (fun _ => rfl) (by simp [abs])
  simp only [apply_seen, effect, abs, get_expire h.seen, h.retention_eq]

/-- Accepting a frame that is not suppressed, or an origin re-send. -/
lemma accept_tracks (extra) (relay : PendingRelay)
    (resend) (ho : relay.Ordinary) (hheard : relay.heardFrom = [])
    (hfresh : resend = false → e.mesh.seen.contains e.clock relay.message.id = false)
    (hslot : e.mesh.pending.length < config.queueCapacity) :
    Follows config e extra (e.mesh.accept relay resend e.clock).2
        { e with mesh := (e.mesh.accept relay resend e.clock).1 } extra := by
  set id := relay.message.id with hid
  set c := if resend then e.mesh.seen.forget id else e.mesh.seen with hc
  have hwf : c.WellFormed e.clock := by
    rw [hc]
    split_ifs
    · exact h.seen.forget id
    · exact h.seen
  have hcfg : c.config = e.mesh.seen.config := by
    rw [hc]
    split_ifs
    · exact forget_config
    · rfl
  have hget : ∀ y, y ≠ id → get c.entries y = get e.mesh.seen.entries y := by
    intro y hy
    rw [hc]
    split_ifs
    · rw [get_forget, if_neg hy]
    · rfl
  have hcont : c.contains e.clock id = false := by
    cases resend with
    | false => simpa [hc] using hfresh rfl
    | true =>
      rw [Bool.eq_false_iff, ne_eq, contains_iff]
      rintro ⟨t, ht, -⟩
      simp [hc, get_forget] at ht
  obtain ⟨hwf', -, hobs⟩ := observe_fresh hwf le_rfl hcont
  refine ⟨⟨h.config_eq, ?_, hwf', h.balanced, ?_⟩, fun past => ?_⟩
  · change (c.observe e.clock id).1.config.retention = _
    rw [observe_config, hcfg, h.retention_eq]
  · simp only [accept, length_append, length_singleton]
    omega
  have hpre := runs_before_recording h extra past (c.observe e.clock id).2.2
  have hen : (meshMachine config.seen.retention).enabled
      { e.abs extra past with
        seen := fun y => if y ∈ (c.observe e.clock id).2.2 then none
          else get (e.mesh.seen.expire e.clock).entries y
        past := past ++ .expired :: (c.observe e.clock id).2.2.map .capacityDropped }
      (.queued relay resend) := by
    refine ⟨ho, hheard, fun hres => ?_⟩
    rintro ⟨t, ht, hlive⟩
    have hnot := hfresh hres
    rw [Bool.eq_false_iff, ne_eq, contains_iff] at hnot
    simp only at ht
    split_ifs at ht
    rw [get_expire h.seen, Option.filter_eq_some_iff] at ht
    exact hnot ⟨t, ht.1, by rw [h.retention_eq]; exact hlive⟩
  refine (hpre.append (runs_single hen)).to ?_
  refine ext rfl ?_ (fun y => ?_) (fun _ => rfl) ?_
  · refine coe_eq_coe.2 ?_
    simp only [accept, append_assoc]
    exact perm_middle.symm
  · simp only [apply_seen, effect, Function.update_apply]
    change _ = get (c.observe e.clock id).1.entries y
    rw [hobs]
    by_cases hy : y = id
    · rw [if_pos hy, if_pos hy]
      rfl
    rw [if_neg hy, if_neg hy, get_expire hwf, get_expire h.seen, hget y hy, hcfg]
  · simp only [apply_past, abs, accept, append_assoc]
    rfl

lemma markHandled_tracks {extra id} :
    Follows config e extra (e.mesh.markHandled id e.clock).2
        { e with mesh := (e.mesh.markHandled id e.clock).1 } extra := by
  have hcfg := observe_config e.mesh.seen e.clock id e.clock
  have hret : (e.mesh.seen.observe e.clock id).1.config.retention = config.seen.retention := by
    rw [hcfg, h.retention_eq]
  have hpre := fun past => runs_before_recording h extra past (e.mesh.seen.observe e.clock id).2.2
  have hwf : (e.mesh.seen.observe e.clock id).1.WellFormed e.clock := by
    cases hc : e.mesh.seen.contains e.clock id with
    | true => rw [RelaySeenCache.observe, observe_duplicate h.seen hc]; exact h.seen.expire e.clock
    | false => exact (observe_fresh h.seen le_rfl hc).1
  refine ⟨⟨h.config_eq, hret, hwf, h.balanced, h.queue_le⟩, fun past => ?_⟩
  have hen : ∀ t, (meshMachine config.seen.retention).enabled t (.handled id) := fun _ => trivial
  refine ((hpre past).append (runs_single (hen _))).to ?_
  refine ext rfl rfl (fun y => ?_) (fun _ => rfl) (by
    simp [abs, markHandled])
  simp only [apply_seen, effect, Function.update_apply, abs, markHandled]
  cases hc : e.mesh.seen.contains e.clock id with
  | true =>
    -- Already suppressed: the observation only expires the cache.
    obtain ⟨t, ht, hlive⟩ := (contains_iff _ _ _).1 hc
    rw [RelaySeenCache.observe, observe_duplicate h.seen hc]
    simp only [not_mem_nil, if_false]
    split_ifs with hy
    · rw [hy, get_expire h.seen, ht]
      simp [Option.filter_some, hlive]
    · rfl
  | false =>
    obtain ⟨-, -, hobs⟩ := observe_fresh h.seen le_rfl hc
    have hnone := get_eq_none_iff.2 (not_mem_expire h.seen hc)
    rw [hobs]
    by_cases hy : y = id
    · simp [hy, hnone]
    · rw [if_neg hy, if_neg hy]

lemma maintain_tracks {extra} : Follows config e extra (e.mesh.maintain e.clock).2
        { e with mesh := (e.mesh.maintain e.clock).1 } extra := by
  refine ⟨⟨h.config_eq, h.retention_eq, h.seen.expire e.clock, h.balanced, h.queue_le⟩,
    tracks_event (fun _ => trivial) rfl rfl (fun y => ?_) fun _ => rfl⟩
  change get (e.mesh.seen.expire e.clock).entries y = _
  rw [get_expire h.seen, h.retention_eq]
  rfl

end

end MeshEngine

end OfflineProtocol
