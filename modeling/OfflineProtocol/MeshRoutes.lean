import OfflineProtocol.FlushRefinement

/-! The relay never black-holes a route: an id is suppressed only while a
forward of it waits, or because since its last recording a forward went out,
was covered by a neighbor that sent a copy, or the id was marked as handled. -/
namespace OfflineProtocol
open KeyedTable EventTrace Multiset Function

namespace MeshState
variable {retention : ℕ} {s s' : MeshState} {e : MeshEvent} {r : PendingRelay} {x : MessageId}
variable {past : List MeshEvent}

def Waits (s : MeshState) (x : MessageId) : Prop :=
  ∃ r ∈ s.waiting, r.Ordinary ∧ r.message.id = x

def HeardFrom (past : List MeshEvent) (x : MessageId) (p : PeerId) : Prop :=
  ∃ m : Message, m.id = x ∧ .arrived m (some p) ∈ past

def SettlesRoute (past : List MeshEvent) (x : MessageId) : MeshEvent → Prop
  | .carried r peers => r.Ordinary ∧ r.message.id = x ∧ peers ≠ []
  | .covered r linked => r.Ordinary ∧ r.message.id = x ∧
      ∃ p ∈ linked, p ∈ r.heardFrom ∧ HeardFrom past x p
  | .handled y => y = x
  | _ => False

/-- The route of `x` was settled after its last recording. -/
def Settled (past : List MeshEvent) (x : MessageId) : Prop :=
  ∃ l₁ l₂, past = l₁ ++ l₂ ∧ (∀ r b, .queued r b ∈ l₂ → r.message.id ≠ x) ∧
    ∃ e ∈ l₂, SettlesRoute past x e

lemma HeardFrom.concat {p : PeerId} (h : HeardFrom past x p)
    {e} : HeardFrom (past ++ [e]) x p := by
  obtain ⟨m, hm, hin⟩ := h
  exact ⟨m, hm, List.mem_append_left _ hin⟩

lemma SettlesRoute.concat {ev : MeshEvent}
    (h : SettlesRoute past x ev) (e) : SettlesRoute (past ++ [e]) x ev := by
  cases ev with
  | covered r linked =>
    obtain ⟨ho, hx, p, hl, hh, hp⟩ := h
    exact ⟨ho, hx, p, hl, hh, hp.concat⟩
  | carried | handled => exact h
  | _ => exact h.elim

lemma Settled.concat (h : Settled past x)
    (he : ∀ r b, e = .queued r b → r.message.id ≠ x) : Settled (past ++ [e]) x := by
  obtain ⟨l₁, l₂, hpast, hnew, ev, hev, hs⟩ := h
  refine ⟨l₁, l₂ ++ [e], by rw [hpast, List.append_assoc], fun r b hr => ?_,
    ev, List.mem_append_left _ hev, hs.concat e⟩
  rcases List.mem_append.1 hr with hr | hr
  · exact hnew r b hr
  · exact he r b (List.mem_singleton.1 hr).symm

lemma settled_now (h : SettlesRoute (past ++ [e]) x e) : Settled (past ++ [e]) x := by
  refine ⟨past, [e], rfl, fun r b hr => ?_, e, List.mem_singleton_self e, h⟩
  rw [← List.mem_singleton.1 hr] at h
  exact h.elim

structure Routed (s : MeshState) : Prop where
  heard : ∀ r ∈ s.waiting, ∀ p ∈ r.heardFrom, HeardFrom s.past r.message.id p
  route : ∀ x, s.seen x ≠ none → s.Waits x ∨ Settled s.past x

lemma start_routed : start.Routed :=
  ⟨fun r hr => absurd hr (notMem_zero r), fun _ h => absurd rfl h⟩

lemma Routed.frame (h : s.Routed) (hpast : s'.past = s.past ++ [e])
    (hheard : ∀ r ∈ s'.waiting, ∀ p ∈ r.heardFrom, HeardFrom s'.past r.message.id p)
    (hseen : ∀ x, s'.seen x ≠ none → s.seen x ≠ none)
    (hwait : ∀ x, s'.seen x ≠ none → s.Waits x → s'.Waits x ∨ Settled s'.past x)
    (he : ∀ r b, e ≠ .queued r b) : s'.Routed := by
  refine ⟨hheard, fun x hx => ?_⟩
  rcases h.route x (hseen x hx) with hw | hset
  · exact hwait x hx hw
  · exact .inr (hpast ▸ hset.concat fun r b heq => absurd heq (he r b))

lemma Routed.heard_concat (h : s.Routed) (e) :
    ∀ r ∈ s.waiting, ∀ p ∈ r.heardFrom, HeardFrom (s.past ++ [e]) r.message.id p :=
  fun r hr p hp => (h.heard r hr p hp).concat

lemma Waits.erase (h : s.Waits x) (hr : r.Ordinary → r.message.id ≠ x) :
    ∃ q ∈ s.waiting.erase r, q.Ordinary ∧ q.message.id = x := by
  obtain ⟨q, hq, ho, hx⟩ := h
  have hne : q ≠ r := fun heq => hr (heq ▸ ho) (heq ▸ hx)
  exact ⟨q, (mem_erase_of_ne hne).2 hq, ho, hx⟩

section
variable (h : s.Routed) (hpast : s'.past = s.past ++ [e]) (hw : s'.waiting = s.waiting.erase r)
include h hpast hw

lemma Routed.release (hs : s'.seen = update s.seen r.message.id none)
    (he : ∀ r b, e ≠ .queued r b) : s'.Routed := by
  have hne : ∀ x, s'.seen x ≠ none → r.message.id ≠ x := by
    intro x hx heq
    rw [hs, heq, update_self] at hx
    exact hx rfl
  refine h.frame hpast (fun q hq => ?_) (fun x hx => ?_) (fun x hx hwait => ?_) he
  · rw [hpast]
    exact h.heard_concat e q (mem_of_mem_erase (hw ▸ hq))
  · have hx' := hx
    rwa [hs, update_of_ne (hne x hx).symm] at hx'
  obtain ⟨q, hq, ho⟩ := hwait.erase fun _ => hne x hx
  exact .inl ⟨q, hw ▸ hq, ho⟩

/-- A forward leaves the queue with its route settled, or was a marked one. -/
lemma Routed.settle (hs : s'.seen = s.seen)
    (hset : r.Ordinary → SettlesRoute (s.past ++ [e]) r.message.id e)
    (he : ∀ r b, e ≠ .queued r b) : s'.Routed := by
  refine h.frame hpast (fun q hq => ?_) (fun x hx => hs ▸ hx) (fun x _ hwait => ?_) he
  · rw [hpast]
    exact h.heard_concat e q (mem_of_mem_erase (hw ▸ hq))
  by_cases hx : r.Ordinary ∧ r.message.id = x
  · exact .inr (hpast ▸ hx.2 ▸ settled_now (hset hx.1))
  obtain ⟨q, hq, ho⟩ := hwait.erase fun ho hrx => hx ⟨ho, hrx⟩
  exact .inl ⟨q, hw ▸ hq, ho⟩

end

lemma Routed.step (h : s.Routed) (hen : s.Enabled retention e) :
    ((meshMachine retention).apply s e).Routed := by
  have hheard := h.heard_concat e
  have hkeep : ∀ x, s.Waits x → s.Waits x ∨ Settled (s.past ++ [e]) x := fun x hw => .inl hw
  cases e with
  | displaced r | abandoned r | refused r => exact h.release rfl rfl rfl (by simp)
  | tick | arrived | deposited | dropped =>
    exact h.frame rfl hheard (fun _ => id) (fun x _ => hkeep x) (by simp)
  | reOriginated r peer | delivered r peer =>
    exact h.settle rfl rfl rfl (fun ho => absurd (ho.symm.trans hen.2.1) (by simp)) (by simp)
  | returned r =>
    exact h.settle rfl rfl rfl (fun ho => absurd hen.2 ho.not_marked) (by simp)
  | carried r peers =>
    exact h.settle rfl rfl rfl (fun ho => ⟨ho, rfl, hen.2.2⟩) (by simp)
  | covered r linked =>
    obtain ⟨hr, -, p, hl, hp⟩ := hen
    exact h.settle rfl rfl rfl (fun ho => ⟨ho, rfl, p, hl, hp, hheard r hr p hp⟩) (by simp)
  | expired =>
    refine h.frame rfl hheard (fun x hx hnone => ?_) (fun x _ => hkeep x) (by simp)
    exact hx (by simp [effect, hnone])
  | capacityDropped y =>
    refine h.frame rfl hheard (fun x hx hnone => ?_) (fun x _ => hkeep x) (by simp)
    by_cases hxy : x = y
    · exact hx (by simp [effect, forget, hxy])
    · exact hx (by simp [effect, forget, update_of_ne hxy, hnone])
  | narrowed r peer =>
    obtain ⟨hr, m, hm, harrived⟩ := hen
    refine h.frame rfl (fun q hq p hp => ?_) (fun _ => id) (fun x _ hw => ?_) (by simp)
    · rcases mem_cons.1 hq with rfl | hq
      · rcases List.mem_append.1 hp with hp | hp
        · exact hheard r hr p hp
        rw [List.mem_singleton.1 hp]
        exact ⟨m, hm, List.mem_append_left _ harrived⟩
      · exact hheard q (mem_of_mem_erase hq) p hp
    · obtain ⟨q, hq, ho, hx⟩ := hw
      by_cases hqr : q = r
      · exact .inl ⟨r.hearFrom peer, mem_cons_self _ _, hqr ▸ ho, hqr ▸ hx⟩
      · exact .inl ⟨q, mem_cons_of_mem ((mem_erase_of_ne hqr).2 hq), ho, hx⟩
  | queued r resend =>
    refine ⟨fun q hq p hp => ?_, fun x hx => ?_⟩
    · rcases mem_cons.1 hq with rfl | hq
      · rw [hen.2.1] at hp
        cases hp
      · exact hheard q hq p hp
    by_cases hxr : r.message.id = x
    · exact .inl ⟨r, mem_cons_self _ _, hen.1, hxr⟩
    have hx' : s.seen x ≠ none := by
      simpa [effect, update_of_ne (Ne.symm hxr)] using hx
    rcases h.route x hx' with ⟨q, hq, ho⟩ | hset
    · exact .inl ⟨q, mem_cons_of_mem hq, ho⟩
    refine .inr (hset.concat fun q b heq => ?_)
    injection heq with hqr
    exact hqr ▸ hxr
  | queuedHeld r peer =>
    refine h.frame rfl (fun q hq p hp => ?_) (fun _ => id) (fun x _ hw => ?_) (by simp)
    · rcases mem_cons.1 hq with rfl | hq
      · rw [hen.2.1] at hp
        cases hp
      · exact hheard q hq p hp
    · obtain ⟨q, hq, ho⟩ := hw
      exact .inl ⟨q, mem_cons_of_mem hq, ho⟩
  | erased =>
    refine h.frame rfl (fun q hq => hheard q (mem_of_mem_filter hq)) (fun _ => id)
      (fun x _ hw => ?_) (by simp)
    obtain ⟨q, hq, ho, hx⟩ := hw
    exact .inl ⟨q, mem_filter.2 ⟨hq, ho⟩, ho, hx⟩
  | handled y =>
    refine ⟨hheard, fun x hx => ?_⟩
    by_cases hxy : y = x
    · exact .inr (settled_now hxy)
    have hx' : s.seen x ≠ none := by
      simpa [effect, update_of_ne (Ne.symm hxy)] using hx
    rcases h.route x hx' with hw | hset
    · exact .inl hw
    · exact .inr (hset.concat (by simp))

end MeshState

namespace MeshRelayGovernor
variable {F : Type*} [AirArith F]

lemma admitUnsuppressed_seen {g : MeshRelayGovernor F} {degree resend now} :
    let r := g.admitUnsuppressed host message arrival degree resend now
    r.2.1 = .queued ∨ r.1.seen = g.seen := by
  have hcharge := chargeArrival_sameQueue host g arrival now
  simp only [admitUnsuppressed]
  split
  · exact .inr hcharge.seen
  split
  · exact .inr hcharge.seen
  split
  · exact .inr hcharge.seen
  · exact .inl rfl

lemma admit_seen (host) (g : MeshRelayGovernor F) (message) (arrival) (degree now) :
    let r := g.admitMessage host message arrival degree now
    r.2.1 = .queued ∨ r.1.seen = g.seen := by
  simp only [admitMessage]
  split
  · split <;> exact .inr rfl
  · exact admitUnsuppressed_seen

end MeshRelayGovernor

namespace MeshEngine
variable {F : Type*} [AirArith F]

/-- In every run from an empty governor a suppressed id has an ordinary forward waiting, or a
forward of it went out, was covered or was marked as handled since its recording; a refusal leaves
the cache as it was. -/
theorem routes_never_black_holed (localId : String) (config : MeshRelayConfig F)
    (custody : CustodyConfig) (steps : List Step) :
    let e := (run localId config custody steps).1
    (∀ x, e.mesh.seen.contains e.clock x = true →
      (∃ r ∈ e.mesh.pending, r.custodyTarget = none ∧ r.message.id = x) ∨
        MeshState.Settled (run localId config custody steps).2 x) ∧
    (∀ host message arrival degree now,
      let r := e.mesh.admitMessage host message arrival degree now
      r.2.1 ∈ [RelayAdmission.rejected .peerRateLimited, .rejected .hopLimitReached,
        .rejected .queueFull] → r.1.seen = e.mesh.seen) ∧
    e.mesh.pending.length ≤ config.queueCapacity := by
  intro e
  obtain ⟨hsound, hruns⟩ := run_refines localId config custody steps
  have hrout : (e.abs [] (run localId config custody steps).2).Routed :=
    hruns.invariant (C := fun _ _ => True) (fun _ _ hs hen _ => hs.step hen)
      (Machine.along_of_forall fun _ _ _ => trivial) MeshState.start_routed
  refine ⟨fun x hx => ?_, fun host message arrival degree now hr => ?_, hsound.queue_le⟩
  · obtain ⟨t, ht, -⟩ := (RelaySeenCache.contains_iff _ _ _).1 hx
    rcases hrout.route x (fun hnone => nomatch ht.symm.trans hnone) with ⟨r, hr, ho, hrx⟩ | hset
    · refine .inl ⟨r, ?_, ho, hrx⟩
      simpa [abs] using hr
    · exact .inr hset
  · refine (e.mesh.admit_seen host message arrival degree now).resolve_left fun hqueued => ?_
    simp [hqueued] at hr

end MeshEngine

end OfflineProtocol
