import OfflineProtocol.CustodyStore
import OfflineProtocol.EventTrace
import Mathlib.Data.Multiset.AddSub
import Mathlib.Data.Multiset.Filter
import Mathlib.Logic.Function.Basic

/-! The forwarding history in the abstract: the forwards a device has taken on
and not yet settled, the ids it suppresses, the frames it holds, and what each
occurrence does to them. Queue positions, budgets and byte counts are gone. -/
namespace OfflineProtocol
open EventTrace

namespace PendingRelay

def Ordinary (r : PendingRelay) : Prop := r.custodyTarget = none

def Marked (r : PendingRelay) : Prop := r.custodyTarget.isSome

instance (r : PendingRelay) : Decidable r.Ordinary := inferInstanceAs (Decidable (_ = _))

instance (r : PendingRelay) : Decidable r.Marked := inferInstanceAs (Decidable (_ = _))

lemma not_marked_iff {r : PendingRelay} : ¬ r.Marked ↔ r.Ordinary := by
  unfold Marked Ordinary
  cases r.custodyTarget <;> simp

lemma Ordinary.not_marked {r : PendingRelay} (h : r.Ordinary) : ¬ r.Marked :=
  not_marked_iff.2 h

end PendingRelay

/-- The abstract state. `waiting` holds the forwards taken on and not yet
settled, `past` every occurrence so far. -/
structure MeshState where
  now : ℕ
  waiting : Multiset PendingRelay
  seen : MessageId → Option ℕ
  held : MessageId → Option HeldFrame
  past : List MeshEvent

namespace MeshState
variable (retention : ℕ) (s : MeshState) (x : MessageId)

@[ext] lemma ext {s t : MeshState} (h1 : s.now = t.now) (h2 : s.waiting = t.waiting)
    (h3 : ∀ x, s.seen x = t.seen x) (h4 : ∀ x, s.held x = t.held x) (h5 : s.past = t.past) :
    s = t := by
  cases s
  cases t
  simp only [mk.injEq] at *
  exact ⟨h1, h2, funext h3, funext h4, h5⟩

def Suppressed : Prop :=
  ∃ t, s.seen x = some t ∧ s.now - t < retention

def settle (r : PendingRelay) : MeshState :=
  { s with waiting := s.waiting.erase r }

def forget : MeshState :=
  { s with seen := Function.update s.seen x none }

def onHeld (f : Option HeldFrame → Option HeldFrame) : MeshState :=
  { s with held := Function.update s.held x (f (s.held x)) }

def effect : MeshEvent → MeshState
  | .tick now => { s with now := now }
  | .arrived _ _ => s
  | .expired => { s with seen := fun x => (s.seen x).filter fun t => decide (s.now - t < retention) }
  | .capacityDropped x => s.forget x
  | .displaced r => (s.settle r).forget r.message.id
  | .narrowed r peer =>
    { s with waiting := r.hearFrom peer ::ₘ s.waiting.erase r }
  | .queued r _ =>
    { s with
      waiting := r ::ₘ s.waiting
      seen := Function.update s.seen r.message.id (some s.now) }
  | .queuedHeld r peer =>
    MeshState.onHeld { s with waiting := r ::ₘ s.waiting } r.message.id
      (Option.map (CustodyStore.markQueuedFrame peer))
  | .abandoned r => (s.settle r).forget r.message.id
  | .carried r _ => s.settle r
  | .covered r _ => s.settle r
  | .refused r => (s.settle r).forget r.message.id
  | .reOriginated r _ =>
    (s.settle r).onHeld r.message.id (Option.map CustodyStore.reOriginatedFrame)
  | .delivered r _ => (s.settle r).onHeld r.message.id fun _ => none
  | .returned r => (s.settle r).onHeld r.message.id (Option.map CustodyStore.returnedFrame)
  | .deposited f => s.onHeld f.message.id fun _ => some f
  | .dropped x => s.onHeld x fun _ => none
  | .erased =>
    { s with held := fun _ => none, waiting := s.waiting.filter fun r => r.Ordinary }
  | .handled x => { s with seen := Function.update s.seen x (some ((s.seen x).getD s.now)) }

def Enabled : MeshEvent → Prop
  | .tick now => s.now ≤ now
  | .displaced r => r ∈ s.waiting
  | .narrowed r peer => r ∈ s.waiting ∧
      ∃ m : Message, m.id = r.message.id ∧ .arrived m (some peer) ∈ s.past
  | .queued r originResend => r.Ordinary ∧ r.heardFrom = [] ∧
      (originResend = false → ¬ s.Suppressed retention r.message.id)
  | .queuedHeld r peer => r.custodyTarget = some peer ∧ r.heardFrom = [] ∧
      ∃ f, s.held r.message.id = some f ∧ f.message = r.message ∧
        CustodyStore.eligible f peer = true
  | .abandoned r => r ∈ s.waiting ∧ r.Ordinary
  | .carried r peers => r ∈ s.waiting ∧ r.Ordinary ∧ peers ≠ []
  | .covered r linked => r ∈ s.waiting ∧ r.Ordinary ∧ ∃ p ∈ linked, p ∈ r.heardFrom
  | .refused r => r ∈ s.waiting ∧ r.Ordinary
  | .reOriginated r peer => r ∈ s.waiting ∧ r.custodyTarget = some peer ∧ peer ≠ r.message.recipient
  | .delivered r peer => r ∈ s.waiting ∧ r.custodyTarget = some peer ∧ peer = r.message.recipient
  | .returned r => r ∈ s.waiting ∧ r.Marked
  | .deposited f => s.held f.message.id = none ∧ f.tried = ∅ ∧ f.inFlight = none
  | _ => True

end MeshState

def meshMachine (retention : ℕ) : Machine MeshState MeshEvent where
  apply s e := { s.effect retention e with past := s.past ++ [e] }
  enabled s e := s.Enabled retention e

namespace MeshState

def start : MeshState where
  now := 0
  waiting := 0
  seen _ := none
  held _ := none
  past := []

variable {retention : ℕ}
variable (s : MeshState) (e : MeshEvent)

@[simp] lemma apply_past : ((meshMachine retention).apply s e).past = s.past ++ [e] := rfl

@[simp] lemma apply_now :
    ((meshMachine retention).apply s e).now = (s.effect retention e).now := rfl

@[simp] lemma apply_waiting :
    ((meshMachine retention).apply s e).waiting = (s.effect retention e).waiting := rfl

@[simp] lemma apply_seen :
    ((meshMachine retention).apply s e).seen = (s.effect retention e).seen := rfl

@[simp] lemma apply_held :
    ((meshMachine retention).apply s e).held = (s.effect retention e).held := rfl

lemma replay_past (es) : ((meshMachine retention).replay s es).past = s.past ++ es := by
  induction es generalizing s with
  | nil => simp
  | cons e es ih => rw [Machine.replay_cons, ih, apply_past, List.append_assoc]; rfl

end MeshState

end OfflineProtocol
