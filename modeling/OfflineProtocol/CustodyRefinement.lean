import OfflineProtocol.CustodyFairness
import OfflineProtocol.AdmitRefinement

/-! The custody side refines the abstract history: judgements, the drop point,
the sweep and the erase. -/
namespace OfflineProtocol
open KeyedTable EventTrace CustodyStore MeshState List

namespace CustodyStore
variable {s : CustodyStore}

lemma judge_balanced (hb : s.Balanced) (c) : (s.judge c).1.Balanced := by
  obtain ⟨gone, ⟨-, heq⟩ | ⟨a, admitted, -, -, hcheck, heq⟩⟩ := judge_cases s c
  · rw [heq]
    exact hb.removeAll
  rw [heq]
  refine (hb.removeAll).insert ?_
  rw [← get_eq_none_iff, get_removeAll, depositFrame,
    get_eq_none_iff.2 (check_ok hcheck).2.1, ite_self]

def goneAfter (s s' : CustodyStore) : List MessageId :=
  s.entries.keys.filter fun id => decide (id ∉ s'.entries)

/-- Clearing the departed ids gives the store after any change that only keeps
or drops frames. -/
lemma get_after_gone (h : get s'.entries x = none ∨ get s'.entries x = get s.entries x) :
    get s'.entries x = if x ∈ s.goneAfter s' then none else get s.entries x := by
  have hiff : x ∈ s.goneAfter s' ↔ x ∈ s.entries ∧ x ∉ s'.entries := by
    simp only [goneAfter, mem_filter, AList.mem_keys, decide_eq_true_eq]
  split_ifs with hgone
  · exact get_eq_none_iff.2 (hiff.1 hgone).2
  rcases h with h | h
  · rw [hiff, not_and, not_not] at hgone
    by_cases hs : x ∈ s.entries
    · exact absurd (hgone hs) (get_eq_none_iff.1 h)
    · rw [h, get_eq_none_iff.2 hs]
  · exact h

end CustodyStore

namespace MeshEngine
variable {F : Type*} {config : MeshRelayConfig F} {e : MeshEngine F}

lemma judge_events (e : MeshEngine F) (c) :
    (e.judge c).2.2 = (e.custody.goneAfter (e.custody.judge c).1).map .dropped ++
      (match (e.custody.judge c).2 with
        | .ok a => (get (e.custody.judge c).1.entries a.id).toList
        | .error _ => []).map .deposited := rfl

section
variable (h : Sound config e)
include h

lemma judge_tracks (extra c) : Follows config e extra (e.judge c).2.2 (e.judge c).1 extra := by
  refine ⟨⟨h.config_eq, h.retention_eq, h.seen, judge_balanced h.balanced c,
    h.queue_le⟩, fun past => ?_⟩
  rw [judge_events]
  have hdrop : (meshMachine config.seen.retention).Runs (e.abs extra past) _ _ :=
    runs_dropped _ (e.custody.goneAfter (e.custody.judge c).1)
  obtain ⟨gone, ⟨⟨refusal, hr⟩, heq⟩ | ⟨a, admitted, hr, hid, hcheck, heq⟩⟩ :=
    judge_cases e.custody c
  · simp only [hr, map_nil, append_nil]
    refine hdrop.to (ext rfl rfl (fun _ => rfl) (fun x => ?_) rfl)
    refine (get_after_gone ?_).symm
    rw [heq, get_removeAll]
    split_ifs
    · exact .inl rfl
    · exact .inr rfl
  have hnew : get (e.custody.judge c).1.entries a.id = some (depositFrame c admitted) := by
    rw [heq, hid]
    exact get_insert_self
  have hold : get e.custody.entries c.message.id = none :=
    get_eq_none_iff.2 (check_ok hcheck).2.1
  have hother : ∀ x, x ≠ c.message.id → get (e.custody.judge c).1.entries x = none ∨
      get (e.custody.judge c).1.entries x = get e.custody.entries x := by
    intro x hx
    rw [heq, CustodyStore.insert, get_insert, CustodyStore.depositFrame, if_neg hx, get_removeAll]
    split_ifs
    · exact .inl rfl
    · exact .inr rfl
  simp only [hr, hnew, Option.toList_some, map_cons, map_nil]
  have hen : (meshMachine config.seen.retention).enabled
      { e.abs extra past with
        held := fun y => if y ∈ e.custody.goneAfter (e.custody.judge c).1 then none
          else get e.custody.entries y
        past := past ++ (e.custody.goneAfter (e.custody.judge c).1).map .dropped }
      (.deposited (depositFrame c admitted)) := by
    refine ⟨?_, rfl, rfl⟩
    simp only [depositFrame, hold, ite_self]
  refine (hdrop.append (Machine.runs_single hen)).to ?_
  refine ext rfl rfl (fun _ => rfl) (fun x => ?_) (by simp [abs])
  simp only [apply_held, effect, onHeld, Function.update_apply]
  change (if x = c.message.id then _ else _) = get (e.custody.judge c).1.entries x
  split_ifs with hx hgone
  · rw [hx, ← hid, hnew]
  · rw [get_after_gone (hother x hx), if_pos hgone]
  rw [get_after_gone (hother x hx), if_neg hgone]
  rfl

omit h in
lemma returned_balanced {s : CustodyStore} (h : s.Balanced) (id) : (s.returned id).Balanced :=
  h.modify _ (fun _ => returnedFrame_keeps.1) (fun _ => returnedFrame_keeps.2.1)
    fun _ => returnedFrame_keeps.2.2

lemma returnHeldToStore_tracks (hm : relay.Marked) :
    Follows config e (relay :: extra) (e.returnHeldToStore relay).2
        (e.returnHeldToStore relay).1 extra := by
  refine ⟨⟨h.config_eq, h.retention_eq, h.seen, returned_balanced h.balanced _, h.queue_le⟩,
    tracks_event (fun past => ⟨?_, hm⟩) rfl ?_ (fun _ => rfl) fun y => ?_⟩
  · exact Multiset.mem_coe.2 (mem_append_right _ (.head _))
  · simp only [effect, MeshState.settle, onHeld, abs]
    rw [Multiset.coe_eq_coe.2 perm_middle, ← Multiset.cons_coe, Multiset.erase_cons_head]
    rfl
  simp only [effect, MeshState.settle, onHeld, abs, Function.update_apply,
    returnHeldToStore, returned, get_modify]

lemma sweepCustodyNow_tracks :
    Follows config e [] (e.sweepCustodyNow nowMs).2 (e.sweepCustodyNow nowMs).1 [] := by
  unfold sweepCustodyNow
  split_ifs
  · exact ⟨h, tracks_refl⟩
  refine ⟨⟨h.config_eq, h.retention_eq, h.seen, h.balanced.removeAll, h.queue_le⟩, fun past => ?_⟩
  refine (runs_dropped (e.abs [] past) _).to ?_
  refine ext rfl rfl (fun _ => rfl) (fun x => ?_) rfl
  exact get_removeAll.symm

lemma eraseCustody_tracks : Follows config e [] e.eraseCustody.2 e.eraseCustody.1 [] := by
  refine ⟨⟨h.config_eq, h.retention_eq, h.seen, new_balanced _, ?_⟩,
    tracks_event (fun _ => trivial) rfl ?_ (fun _ => rfl) fun _ => rfl⟩
  · exact (length_filter_le _ _).trans h.queue_le
  simp only [effect, abs, eraseCustody, MeshRelayGovernor.dropHeld, append_nil, Multiset.filter_coe]
  refine congrArg _ (filter_congr fun r _ => ?_)
  rw [Bool.eq_iff_iff, decide_eq_true_eq, Option.isNone_iff_eq_none]
  exact .rfl

lemma sendCustodyReceipt_tracks (extra) (receipt) :
    Follows config e extra (e.sendCustodyReceipt receipt).2
        (e.sendCustodyReceipt receipt).1 extra := by
  cases receipt with
  | none => exact ⟨h, tracks_refl⟩
  | some id => exact markHandled_tracks h

lemma judgeAtDropPoint_tracks (env relay) (extra) :
    Follows config e ([relay].filter (·.custodyTarget.isSome) ++ extra)
        (e.judgeAtDropPoint env relay).2 (e.judgeAtDropPoint env relay).1 extra := by
  unfold judgeAtDropPoint
  split_ifs with hm
  · rw [filter_singleton, hm]
    exact returnHeldToStore_tracks h hm
  rw [filter_singleton, Bool.eq_false_iff.2 hm]
  simp only
  have hj := fun c => judge_tracks h extra c
  split
  · rename_i a _
    obtain ⟨hs, ht⟩ := sendCustodyReceipt_tracks (hj _).1 extra (env.receiptId a.id)
    exact ⟨hs, (hj _).2.trans ht⟩
  · exact hj _

lemma dropPointLoop_tracks (env abandoned) (extra) :
    Follows config e (abandoned.filter (·.custodyTarget.isSome) ++ extra)
        (dropPointLoop env e abandoned).2 (dropPointLoop env e abandoned).1 extra := by
  induction abandoned generalizing e with
  | nil => exact ⟨h, tracks_refl⟩
  | cons relay rest ih =>
    obtain ⟨hs, ht⟩ := judgeAtDropPoint_tracks h env relay
      (rest.filter (·.custodyTarget.isSome) ++ extra)
    obtain ⟨hs', ht'⟩ := ih hs
    refine ⟨hs', ?_⟩
    rw [← append_assoc, ← filter_append, singleton_append] at ht
    exact ht.trans ht'

end

end MeshEngine

end OfflineProtocol
