import OfflineProtocol.FlushRefinement

/-! Marked forwards against the frames they were queued for. -/
namespace OfflineProtocol
open EventTrace Multiset Function PendingRelay

def markedIn (w : Multiset PendingRelay) (x : MessageId) : Multiset PendingRelay :=
  w.filter fun r => r.Marked ∧ r.message.id = x

section
variable {r : PendingRelay} {x : MessageId}

lemma mem_markedIn : r ∈ markedIn w x ↔ r ∈ w ∧ r.Marked ∧ r.message.id = x :=
  mem_filter

lemma markedIn_cons_ordinary (ho : r.Ordinary) (x) : markedIn (r ::ₘ w) x = markedIn w x :=
  filter_cons_of_neg _ fun h => ho.not_marked h.1

lemma markedIn_cons_marked (hm : r.Marked) :
    markedIn (r ::ₘ w) r.message.id = r ::ₘ markedIn w r.message.id :=
  filter_cons_of_pos _ ⟨hm, rfl⟩

lemma markedIn_cons_ne (h : x ≠ r.message.id) : markedIn (r ::ₘ w) x = markedIn w x :=
  filter_cons_of_neg _ fun hr => h hr.2.symm

lemma markedIn_erase_ordinary (hr : r ∈ w) (ho : r.Ordinary) (x) :
    markedIn (w.erase r) x = markedIn w x := by
  rw [← cons_erase hr, erase_cons_head, markedIn_cons_ordinary ho]

lemma markedIn_erase_marked (hr : r ∈ w) (hm : r.Marked) :
    markedIn w r.message.id = r ::ₘ markedIn (w.erase r) r.message.id := by
  rw [← markedIn_cons_marked hm, cons_erase hr]

lemma markedIn_erase_ne (hr : r ∈ w) (h : x ≠ r.message.id) :
    markedIn (w.erase r) x = markedIn w x := by
  rw [← markedIn_cons_ne h, cons_erase hr]

end

namespace MeshState

/-- No frame is taken into custody over a marked forward of its id. -/
def FreshDeposit (s : MeshState) : MeshEvent → Prop
  | .deposited f => ∀ r ∈ s.waiting, r.Marked → r.message.id ≠ f.message.id
  | _ => True

instance (s : MeshState) (e : MeshEvent) : Decidable (s.FreshDeposit e) := by
  cases e <;> dsimp only [FreshDeposit] <;> infer_instance

structure Flagged (s : MeshState) : Prop where
  single : ∀ x, (markedIn s.waiting x).card ≤ 1
  flag : ∀ x f, s.held x = some f → ∀ r ∈ markedIn s.waiting x, f.inFlight = r.custodyTarget

lemma start_flagged : start.Flagged :=
  ⟨fun _ => Nat.zero_le _, nofun⟩

variable {retention : ℕ} {s s' : MeshState} {r : PendingRelay}

lemma Flagged.congr (h : s.Flagged) (hm : ∀ x, markedIn s'.waiting x = markedIn s.waiting x)
    (hh : s'.held = s.held) : s'.Flagged :=
  ⟨fun x => by rw [hm]; exact h.single x, fun x f hf => by rw [hm, hh] at *; exact h.flag x f hf⟩

/-- Once the single marked forward of an id is settled, none is left. -/
lemma Flagged.settled (h : s.Flagged) (hr : r ∈ s.waiting) (hm : r.Marked) :
    markedIn (s.waiting.erase r) r.message.id = 0 := by
  have hcard := h.single r.message.id
  rw [markedIn_erase_marked hr hm, card_cons] at hcard
  exact card_eq_zero.1 (by omega)

lemma Flagged.settle_marked (h : s.Flagged) (hr : r ∈ s.waiting) (hm : r.Marked)
    (hw : s'.waiting = s.waiting.erase r)
    (hh : ∀ x, x ≠ r.message.id → s'.held x = s.held x) : s'.Flagged := by
  have hnone := h.settled hr hm
  refine ⟨fun x => ?_, fun x f hf q hq => ?_⟩
  · rw [hw]
    by_cases hx : x = r.message.id
    · rw [hx, hnone]
      exact Nat.zero_le _
    rw [markedIn_erase_ne hr hx]
    exact h.single x
  · rw [hw] at hq
    by_cases hx : x = r.message.id
    · rw [hx, hnone] at hq
      exact absurd hq (notMem_zero q)
    rw [markedIn_erase_ne hr hx] at hq
    exact h.flag x f (by rw [← hh x hx]; exact hf) q hq

lemma Flagged.none_waiting (h : s.Flagged)
    (hf : s.held x = some f) (hn : f.inFlight = none) : markedIn s.waiting x = 0 := by
  refine eq_zero_of_forall_notMem fun q hq => ?_
  have hflag := h.flag x f hf q hq
  have hm := (mem_markedIn.1 hq).2.1
  rw [hn] at hflag
  rw [Marked, ← hflag] at hm
  cases hm

lemma eligible_inFlight (h : CustodyStore.eligible f peer = true) : f.inFlight = none := by
  simp only [CustodyStore.eligible, Bool.and_eq_true] at h
  exact Option.isNone_iff_eq_none.1 h.1.2

lemma markedIn_narrowed (hr : r ∈ s.waiting) (peer x) :
    (markedIn (r.hearFrom peer ::ₘ s.waiting.erase r) x).map (·.custodyTarget) =
      (markedIn s.waiting x).map (·.custodyTarget) := by
  rcases Decidable.em r.Marked with hm | hm
  · by_cases hx : x = r.message.id
    · subst hx
      rw [markedIn_erase_marked hr hm, map_cons]
      exact (congrArg _ (markedIn_cons_marked (r := r.hearFrom peer) hm)).trans (map_cons _ _ _)
    · rw [markedIn_cons_ne (r := r.hearFrom peer) hx, markedIn_erase_ne hr hx]
  · have ho := not_marked_iff.1 hm
    rw [markedIn_cons_ordinary (r := r.hearFrom peer) ho, markedIn_erase_ordinary hr ho]

lemma Flagged.narrow (h : s.Flagged) (hm : ∀ x, (markedIn s'.waiting x).map (·.custodyTarget) =
      (markedIn s.waiting x).map (·.custodyTarget)) (hh : s'.held = s.held) : s'.Flagged := by
  refine ⟨fun x => ?_, fun x f hf q hq => ?_⟩
  · rw [← card_map, hm, card_map]
    exact h.single x
  have hmem := mem_map_of_mem (·.custodyTarget) hq
  rw [hm] at hmem
  obtain ⟨q', hq', htarget⟩ := mem_map.1 hmem
  rw [← htarget]
  exact h.flag x f (hh ▸ hf) q' hq'

lemma Flagged.step (h : s.Flagged) (hen : s.Enabled retention e)
    (hc : s.FreshDeposit e) : ((meshMachine retention).apply s e).Flagged := by
  cases e with
  | tick | arrived | expired | capacityDropped | handled => exact h.congr (fun _ => rfl) rfl
  | queued r resend => exact h.congr (fun x => markedIn_cons_ordinary hen.1 x) rfl
  | abandoned r => exact h.congr (fun x => markedIn_erase_ordinary hen.1 hen.2 x) rfl
  | carried r peers => exact h.congr (fun x => markedIn_erase_ordinary hen.1 hen.2.1 x) rfl
  | covered r linked => exact h.congr (fun x => markedIn_erase_ordinary hen.1 hen.2.1 x) rfl
  | refused r => exact h.congr (fun x => markedIn_erase_ordinary hen.1 hen.2 x) rfl
  | narrowed r peer => exact h.narrow (fun x => markedIn_narrowed hen.1 peer x) rfl
  | displaced r =>
    rcases Decidable.em r.Marked with hm | hm
    · exact h.settle_marked hen hm rfl fun _ _ => rfl
    · exact h.congr (fun x => markedIn_erase_ordinary hen (not_marked_iff.1 hm) x) rfl
  | queuedHeld r peer =>
    -- The frame was eligible, so nothing of its id was on its way.
    obtain ⟨htarget, -, f, hf, -, hel⟩ := hen
    have hm : r.Marked := by rw [Marked, htarget]; rfl
    have hnone := h.none_waiting hf (eligible_inFlight hel)
    refine ⟨fun x => ?_, fun x g hg q hq => ?_⟩
    · by_cases hx : x = r.message.id
      · subst hx
        exact (congrArg card (markedIn_cons_marked hm)).trans_le (by simp [hnone])
      · exact (congrArg card (markedIn_cons_ne hx)).trans_le (h.single x)
    simp only [apply_waiting, apply_held, effect, onHeld] at hg hq
    by_cases hx : x = r.message.id
    · subst hx
      rw [markedIn_cons_marked hm, hnone, mem_cons] at hq
      rw [update_self, hf] at hg
      rcases hq with rfl | hq
      · rw [← Option.some.inj hg, htarget]
        rfl
      · exact absurd hq (notMem_zero q)
    · rw [markedIn_cons_ne hx] at hq
      rw [update_of_ne hx] at hg
      exact h.flag x g hg q hq
  | reOriginated r peer =>
    have hm : r.Marked := by rw [Marked, hen.2.1]; rfl
    exact h.settle_marked hen.1 hm rfl fun x hx => update_of_ne hx _ _
  | delivered r peer =>
    have hm : r.Marked := by rw [Marked, hen.2.1]; rfl
    exact h.settle_marked hen.1 hm rfl fun x hx => update_of_ne hx _ _
  | returned r => exact h.settle_marked hen.1 hen.2 rfl fun x hx => update_of_ne hx _ _
  | deposited f =>
    refine ⟨h.single, fun x g hg q hq => ?_⟩
    obtain ⟨hq1, hq2, hq3⟩ := mem_markedIn.1 hq
    by_cases hx : x = f.message.id
    · exact absurd (hq3.trans hx) (hc q hq1 hq2)
    simp only [apply_held, effect, onHeld, update_of_ne hx] at hg
    exact h.flag x g hg q hq
  | dropped y =>
    refine ⟨h.single, fun x g hg q hq => ?_⟩
    simp only [apply_held, effect, onHeld, update_apply] at hg
    split_ifs at hg
    exact h.flag x g hg q hq
  | erased =>
    have hle : ∀ x, markedIn (s.waiting.filter fun r => r.Ordinary) x ≤ markedIn s.waiting x :=
      fun x => filter_le_filter _ (filter_le _ _)
    exact ⟨fun x => (card_le_card (hle x)).trans (h.single x), fun x g hg => by cases hg⟩

lemma Flagged.of_runs (h : (meshMachine retention).Runs start es s)
    (hc : (meshMachine retention).Along FreshDeposit start es) : s.Flagged :=
  h.invariant (fun _ _ hs hen hc => hs.step hen hc) hc start_flagged

end MeshState

end OfflineProtocol
