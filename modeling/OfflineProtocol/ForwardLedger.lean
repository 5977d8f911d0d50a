import OfflineProtocol.FlushRefinement
import Mathlib.Algebra.BigOperators.Group.Multiset.Basic

/-! What becomes of the ordinary forwards a device takes on. -/
namespace OfflineProtocol
open EventTrace Multiset PendingRelay

/-- The frame of an ordinary forward; one queued for custody counts for nothing. -/
def PendingRelay.share (r : PendingRelay) : Multiset Message :=
  if r.Ordinary then {r.message} else 0

def ordinaryIn (w : Multiset PendingRelay) : Multiset Message := (w.map share).sum

def MeshEvent.takenOn : MeshEvent → Multiset Message
  | .queued r _ => {r.message}
  | _ => 0

/-- The frame whose ordinary forward an occurrence ends. -/
def MeshEvent.settled : MeshEvent → Multiset Message
  | .displaced r | .abandoned r | .carried r _ | .covered r _ | .refused r
  | .reOriginated r _ | .delivered r _ | .returned r => r.share
  | _ => 0

lemma ordinaryIn_cons (r w) : ordinaryIn (r ::ₘ w) = ordinaryIn w + r.share := by
  rw [ordinaryIn, map_cons, sum_cons, add_comm]
  rfl

lemma ordinaryIn_erase {r : PendingRelay} (hr : r ∈ w) :
    ordinaryIn (w.erase r) + r.share = ordinaryIn w := by
  rw [← ordinaryIn_cons, cons_erase hr]

namespace MeshState
variable {retention : ℕ} {s s' : MeshState}

/-- One occurrence: what was queued waits or is settled, once. -/
lemma effect_balance (h : s.Enabled retention e) :
    ordinaryIn (s.effect retention e).waiting + e.settled = ordinaryIn s.waiting + e.takenOn := by
  cases e with
  | queued r b =>
    have hcons := ordinaryIn_cons r s.waiting
    rw [share, if_pos h.1] at hcons
    exact (add_zero _).trans hcons
  | queuedHeld r peer =>
    have hcons := ordinaryIn_cons r s.waiting
    rw [share, if_neg fun ho => by cases h.1.symm.trans ho] at hcons
    exact (add_zero _).trans hcons
  | narrowed r peer =>
    have hshare : (r.hearFrom peer).share = r.share := rfl
    exact congrArg (· + 0) ((ordinaryIn_cons _ _).trans (hshare ▸ ordinaryIn_erase h.1))
  | displaced r => exact (ordinaryIn_erase h).trans (add_zero _).symm
  | abandoned | carried | covered | refused | reOriginated | delivered | returned =>
    exact (ordinaryIn_erase h.1).trans (add_zero _).symm
  | erased =>
    refine congrArg (· + 0) ?_
    show ordinaryIn (s.waiting.filter fun r => r.Ordinary) = ordinaryIn s.waiting
    induction s.waiting using Multiset.induction_on with
    | empty => rfl
    | cons r w ih =>
      rw [ordinaryIn_cons, ← ih]
      by_cases ho : r.Ordinary
      · rw [filter_cons_of_pos _ ho, ordinaryIn_cons]
      · rw [filter_cons_of_neg _ ho, share, if_neg ho, add_zero]
  | _ => rfl

lemma runs_balance (h : (meshMachine retention).Runs s es s') :
    ordinaryIn s'.waiting + (es.map MeshEvent.settled).sum =
      ordinaryIn s.waiting + (es.map MeshEvent.takenOn).sum := by
  obtain ⟨rfl, hen⟩ := h
  induction es generalizing s with
  | nil => rfl
  | cons e es ih =>
    rw [Machine.replay_cons, List.map_cons, List.sum_cons, add_left_comm, ih hen.2, ← add_assoc,
      add_comm e.settled, apply_waiting, effect_balance hen.1, add_assoc, List.map_cons,
      List.sum_cons]

end MeshState

/-- In every run each ordinary forward that was taken on either waits in the queue or was settled,
and settled once: none is lost between two calls. -/
theorem MeshEngine.forwards_settled_once {F : Type*} [AirArith F] (localId : String)
    (config : MeshRelayConfig F) (custody : CustodyConfig) (steps : List Step) :
    let r := run localId config custody steps
    (r.2.map MeshEvent.takenOn).sum =
      ordinaryIn r.1.mesh.pending + (r.2.map MeshEvent.settled).sum := by
  intro r
  have hbal := MeshState.runs_balance (run_refines localId config custody steps).2
  rw [show (r.1.abs [] r.2).waiting = r.1.mesh.pending by simp [abs]] at hbal
  exact (hbal.trans (zero_add _)).symm

end OfflineProtocol
