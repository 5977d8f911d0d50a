import OfflineProtocol.MeshEngine

/-! What each governor function does to the queue and the suppression cache,
and what it leaves alone. -/
namespace OfflineProtocol
open KeyedTable List

namespace MeshRelayGovernor
variable {F : Type*} [AirArith F] {g : MeshRelayGovernor F}

structure SameQueue (g g' : MeshRelayGovernor F) : Prop where
  config : g'.config = g.config
  pending : g'.pending = g.pending
  seen : g'.seen = g.seen

omit [AirArith F] in
lemma SameQueue.refl (g : MeshRelayGovernor F) : SameQueue g g := ⟨rfl, rfl, rfl⟩

omit [AirArith F] in
lemma SameQueue.trans (h : SameQueue g1 g2) (h' : SameQueue g2 g3) : SameQueue g1 g3 :=
  ⟨h'.config.trans h.config, h'.pending.trans h.pending, h'.seen.trans h.seen⟩

lemma takePeerToken_sameQueue (host) (g : MeshRelayGovernor F) (peer)
    (now) : SameQueue g (g.takePeerToken host peer now).1 := by
  simp only [takePeerToken]
  split <;> exact ⟨rfl, rfl, rfl⟩

lemma chargeArrival_sameQueue (host) (g : MeshRelayGovernor F)
    (arrival : Option PeerId) (now) : SameQueue g (g.chargeArrival host arrival now).1 := by
  cases arrival with
  | none => exact .refl g
  | some peer => exact takePeerToken_sameQueue host g peer now

lemma hasSendBudget_sameQueue (g : MeshRelayGovernor F) (now) :
    SameQueue g (g.hasSendBudget now).1 := by
  simp only [hasSendBudget]
  split_ifs <;> exact ⟨rfl, rfl, rfl⟩

lemma takeSendToken_sameQueue (g : MeshRelayGovernor F) (now) :
    SameQueue g (g.takeSendToken now).1 := by
  have h := hasSendBudget_sameQueue g now
  simp only [takeSendToken]
  split_ifs
  · exact ⟨h.config, h.pending, h.seen⟩
  · exact h

lemma sendLoop_sameQueue (now : ℕ) (direct : Bool) (recipient)
    (g : MeshRelayGovernor F) (sends targets) :
    SameQueue g (MeshEngine.sendLoop now direct recipient g sends targets).mesh := by
  induction targets generalizing g sends with
  | nil => exact .refl g
  | cons target rest ih =>
    have htoken := takeSendToken_sameQueue g now
    simp only [MeshEngine.sendLoop]
    split_ifs
    · exact htoken
    · exact htoken
    · exact htoken.trans (ih _ _)
    · exact htoken.trans (ih _ _)

omit [AirArith F] in
lemma evictionVictim_mem {pending : List PendingRelay}
    (h : evictionVictim pending candidate now = some victim) : victim ∈ pending := by
  simp only [evictionVictim, Option.or_eq_some_iff] at h
  rcases h with h | ⟨-, h⟩
  · exact mem_of_mem_filter (argmin_mem h)
  · exact mem_of_mem_filter (argmin_mem h)

omit [AirArith F] in
lemma makeRoom_cases (h : g.makeRoom message now = some r) :
    (r = (g, []) ∧ g.pending.length < g.config.queueCapacity) ∨ ∃ victim ∈ g.pending, r = ({ g with
        pending := g.pending.erase victim
        seen := g.seen.forget victim.message.id }, [.displaced victim]) := by
  unfold makeRoom at h
  split_ifs at h with hfull
  · right
    simp only [evictFor, Option.map_map, Option.map_eq_some_iff] at h
    obtain ⟨victim, hv, rfl⟩ := h
    exact ⟨victim, evictionVictim_mem hv, rfl⟩
  · left
    exact ⟨(Option.some.inj h).symm, not_le.1 hfull⟩

omit [AirArith F] in
lemma makeRoom_slot
    (h : g.makeRoom message now = some r) (hle : g.pending.length ≤ g.config.queueCapacity) :
    r.1.pending.length < r.1.config.queueCapacity := by
  rcases makeRoom_cases h with ⟨rfl, hlt⟩ | ⟨victim, hv, rfl⟩
  · exact hlt
  have hlen := length_erase_of_mem hv
  have hpos := length_pos_of_mem hv
  simp only
  omega

/-- The queue is split by `release_due` without loss or duplication. -/
lemma releaseLoop_perm (now) (g : MeshRelayGovernor F) (pending) :
    let r := releaseLoop now g pending
    (r.keep ++ (r.due ++ r.abandoned)).Perm pending := by
  induction pending generalizing g with
  | nil => exact .refl _
  | cons relay rest ih =>
    simp only [releaseLoop]
    have hlast : ∀ k d a : List PendingRelay,
        (k ++ (d ++ relay :: a)).Perm (relay :: (k ++ (d ++ a))) := by
      intro k d a
      simp only [← append_assoc]
      exact perm_middle
    split_ifs
    · exact (ih g).cons relay
    · exact (hlast _ _ _).trans ((ih _).cons relay)
    · exact (hlast _ _ _).trans ((ih _).cons relay)
    · exact perm_middle.trans ((ih _).cons relay)
    · exact (ih _).cons relay

lemma releaseLoop_seen (now) (g : MeshRelayGovernor F) (pending) :
    let r := releaseLoop now g pending
    r.governor.config = g.config ∧
      r.governor.seen = (r.abandoned.filter (·.custodyTarget.isNone)).foldl
        (fun c relay => c.forget relay.message.id) g.seen := by
  induction pending generalizing g with
  | nil => exact ⟨rfl, rfl⟩
  | cons relay rest ih =>
    have hbudget := hasSendBudget_sameQueue g now
    simp only [releaseLoop]
    split_ifs with h1 h2 h3 h4
    · exact ih g
    · obtain ⟨hc, hs⟩ := ih { g with seen := g.seen.forget relay.message.id }
      refine ⟨hc, ?_⟩
      rw [filter_cons_of_pos (by simpa using h3), foldl_cons]
      exact hs
    · obtain ⟨hc, hs⟩ := ih g
      refine ⟨hc, ?_⟩
      rw [filter_cons_of_neg (by simpa using h3)]
      exact hs
    · obtain ⟨hc, hs⟩ := ih (g.hasSendBudget now).1
      exact ⟨hc.trans hbudget.config, by rw [hs, hbudget.seen]⟩
    · obtain ⟨hc, hs⟩ := ih (g.hasSendBudget now).1
      exact ⟨hc.trans hbudget.config, by rw [hs, hbudget.seen]⟩

end MeshRelayGovernor

end OfflineProtocol
