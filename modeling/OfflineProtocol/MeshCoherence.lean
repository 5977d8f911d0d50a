import OfflineProtocol.CustodyFairness
import OfflineProtocol.MarkedForwards

/-! In-flight coherence between the custody store and the forwarding queue: a held
frame is noted as on its way to a neighbor exactly while a marked forward of it
waits for that neighbor. -/
namespace OfflineProtocol
open KeyedTable EventTrace Function CustodyStore

namespace MeshState

/-- No marked forward of a held frame is displaced, and no frame is taken into
custody over a marked forward of its id. -/
def KeepsForwards (s : MeshState) : MeshEvent → Prop
  | .displaced r => r.Marked → s.held r.message.id = none
  | .deposited f => ∀ r ∈ s.waiting, r.Marked → r.message.id ≠ f.message.id
  | _ => True

instance (s : MeshState) (e : MeshEvent) : Decidable (s.KeepsForwards e) := by
  apply @MeshEvent.casesOn (fun e => Decidable (s.KeepsForwards e)) e <;> intros <;>
    dsimp only [KeepsForwards] <;> infer_instance

lemma KeepsForwards.freshDeposit {s : MeshState} {e : MeshEvent} (h : s.KeepsForwards e) :
    s.FreshDeposit e := by
  cases e with
  | deposited f => exact h
  | _ => trivial

def Backed (s : MeshState) : Prop :=
  ∀ x f p, s.held x = some f → f.inFlight = some p → markedIn s.waiting x ≠ 0

variable {retention : ℕ} {s s' : MeshState} {r : PendingRelay}

lemma Backed.frame (h : s.Backed) (y)
    (hm : ∀ x, x ≠ y → markedIn s.waiting x ≠ 0 → markedIn s'.waiting x ≠ 0)
    (hh : ∀ x, x ≠ y → s'.held x = s.held x)
    (hy : ∀ f p, s'.held y = some f → f.inFlight = some p → markedIn s'.waiting y ≠ 0) :
    s'.Backed := by
  intro x f p hf hp
  by_cases hx : x = y
  · subst hx
    exact hy f p hf hp
  · exact hm x hx (h x f p (by rw [← hh x hx]; exact hf) hp)

lemma Backed.congr (h : s.Backed) (hm : ∀ x, markedIn s'.waiting x = markedIn s.waiting x)
    (hh : s'.held = s.held) : s'.Backed := by
  intro x f p hf hp
  rw [hm]
  exact h x f p (hh ▸ hf) hp

/-- A marked forward is settled and its frame, if still held, is at rest. -/
lemma Backed.at_rest (h : s.Backed) (hr : r ∈ s.waiting) (hw : s'.waiting = s.waiting.erase r)
    (hh : ∀ x, x ≠ r.message.id → s'.held x = s.held x)
    (hrest : ∀ f, s'.held r.message.id = some f → f.inFlight = none) : s'.Backed := by
  refine h.frame r.message.id (fun x hx hne => ?_) hh fun f p hf hp => ?_
  · rw [hw, markedIn_erase_ne hr hx]
    exact hne
  rw [hrest f hf] at hp
  exact nomatch hp

lemma returnedFrame_inFlight (f) : (returnedFrame f).inFlight = none := by
  unfold returnedFrame
  cases h : f.inFlight with
  | none => exact h
  | some p => rfl

lemma Backed.step (h : s.Backed) (hen : s.Enabled retention e)
    (hc : s.KeepsForwards e) : ((meshMachine retention).apply s e).Backed := by
  cases e with
  | tick | arrived | expired | capacityDropped | handled => exact h.congr (fun _ => rfl) rfl
  | queued r resend => exact h.congr (fun x => markedIn_cons_ordinary hen.1 x) rfl
  | abandoned r => exact h.congr (fun x => markedIn_erase_ordinary hen.1 hen.2 x) rfl
  | carried r peers => exact h.congr (fun x => markedIn_erase_ordinary hen.1 hen.2.1 x) rfl
  | covered r linked => exact h.congr (fun x => markedIn_erase_ordinary hen.1 hen.2.1 x) rfl
  | refused r => exact h.congr (fun x => markedIn_erase_ordinary hen.1 hen.2 x) rfl
  | narrowed r peer =>
    intro x f p hf hp hzero
    have hmap := (markedIn_narrowed hen.1 peer x).symm.trans (congrArg _ hzero)
    exact h x f p hf hp (Multiset.map_eq_zero.1 hmap)
  | displaced r =>
    rcases Decidable.em r.Marked with hm | hm
    · refine h.at_rest hen rfl (fun _ _ => rfl) fun f hf => ?_
      exact absurd ((hc hm).symm.trans hf) (by simp)
    · exact h.congr (fun x => markedIn_erase_ordinary hen (PendingRelay.not_marked_iff.1 hm) x) rfl
  | queuedHeld r peer =>
    have hm : r.Marked := by rw [PendingRelay.Marked, hen.1]; rfl
    refine h.frame r.message.id (fun x hx hne => ?_)
      (fun x hx => update_of_ne hx _ _) fun _ _ _ _ => ?_
    · exact (markedIn_cons_ne hx).trans_ne hne
    · exact (markedIn_cons_marked hm).trans_ne Multiset.cons_ne_zero
  | reOriginated r peer =>
    refine h.at_rest hen.1 rfl (fun x hx => update_of_ne hx _ _) fun f hf => ?_
    simp only [apply_held, effect, onHeld, update_self, Option.map_eq_some_iff] at hf
    obtain ⟨g, -, rfl⟩ := hf
    rfl
  | delivered r peer =>
    refine h.at_rest hen.1 rfl (fun x hx => update_of_ne hx _ _) fun f hf => ?_
    simp [effect, onHeld] at hf
  | returned r =>
    refine h.at_rest hen.1 rfl (fun x hx => update_of_ne hx _ _) fun f hf => ?_
    simp only [apply_held, effect, onHeld, update_self, Option.map_eq_some_iff] at hf
    obtain ⟨g, -, rfl⟩ := hf
    exact returnedFrame_inFlight g
  | deposited f =>
    refine h.frame f.message.id (fun _ _ hne => hne) (fun x hx => update_of_ne hx _ _)
      fun g p hg hp => ?_
    simp only [apply_held, effect, onHeld, update_self, Option.some.injEq] at hg
    rw [← hg, hen.2.2] at hp
    cases hp
  | dropped y =>
    refine h.frame y (fun _ _ hne => hne) (fun x hx => update_of_ne hx _ _) fun g p hg _ => ?_
    simp [effect, onHeld] at hg
  | erased =>
    intro x f p hf
    cases hf

end MeshState

namespace MeshEngine
variable {F : Type*} [AirArith F]

/-- In every run that keeps its marked forwards, the queue holds at most one marked
forward of an id, and a held frame is on its way to `p` exactly if there is one,
toward `p`. -/
theorem in_flight_coherence (localId : String) (config : MeshRelayConfig F)
    (custody : CustodyConfig) (steps : List Step)
    (hkeeps : (meshMachine config.seen.retention).Along MeshState.KeepsForwards MeshState.start
      (run localId config custody steps).2) :
    let e := (run localId config custody steps).1
    (∀ x, (e.mesh.pending.filter fun r => r.custodyTarget.isSome ∧ r.message.id = x).length ≤ 1) ∧
      ∀ x f p, get e.custody.entries x = some f → (f.inFlight = some p ↔
        ∃ r, e.mesh.pending.filter (fun r => r.custodyTarget.isSome ∧ r.message.id = x) = [r] ∧
          r.custodyTarget = some p) := by
  intro e
  obtain ⟨-, hruns⟩ := run_refines localId config custody steps
  have hflag := MeshState.Flagged.of_runs hruns
    (Machine.along_mono hkeeps fun _ _ h => h.freshDeposit)
  have hback : (e.abs [] (run localId config custody steps).2).Backed :=
    hruns.invariant (fun _ _ hs hen hc => hs.step hen hc) hkeeps nofun
  -- The marked forwards of `x`, on the queue and in the abstraction.
  have hlist (x) : markedIn (e.abs [] (run localId config custody steps).2).waiting x =
      ↑(e.mesh.pending.filter fun r => r.custodyTarget.isSome ∧ r.message.id = x) := by
    simp only [markedIn, abs, List.append_nil, Multiset.filter_coe]
    rfl
  have hcard (x) : (e.mesh.pending.filter fun r => r.custodyTarget.isSome ∧
      r.message.id = x).length ≤ 1 := by
    have hsingle := hflag.single x
    rwa [hlist, Multiset.coe_card] at hsingle
  refine ⟨hcard, fun x f p hf => ⟨fun hp => ?_, ?_⟩⟩
  · have hne := hback x f p hf hp
    rw [hlist] at hne
    obtain ⟨r, hr⟩ := List.length_eq_one_iff.1
      (le_antisymm (hcard x) (List.length_pos_iff.2 fun h => hne (by rw [h]; rfl)))
    refine ⟨r, hr, ?_⟩
    rw [← hflag.flag x f hf r (by rw [hlist, hr]; exact Multiset.mem_singleton_self r)]
    exact hp
  · rintro ⟨r, hr, hrp⟩
    rw [hflag.flag x f hf r (by rw [hlist, hr]; exact Multiset.mem_singleton_self r)]
    exact hrp

def heldAndQueued : List Step :=
  [.now (.judge (sealedDeposit "m1" "a" "r")), .now (.redeliver "b" ["b"] true true)]

theorem in_flight_coherence_queued :
    let e := (run "d" (MeshRelayConfig.default (F := ℚ)) narrowConfig heldAndQueued).1
    ∃ f, get e.custody.entries "m1" = some f ∧ f.inFlight = some "b" ∧
      ∃ r, e.mesh.pending.filter (fun r => r.custodyTarget.isSome ∧ r.message.id = "m1") = [r] ∧
        r.custodyTarget = some "b" := by
  intro e
  have hheld : (get e.custody.entries "m1").map (·.inFlight) = some (some "b") := by
    decide +kernel
  obtain ⟨f, hf, hp⟩ := Option.map_eq_some_iff.1 hheld
  have h := in_flight_coherence "d" (MeshRelayConfig.default (F := ℚ)) narrowConfig
    heldAndQueued (by decide +kernel)
  exact ⟨f, hf, hp, (h.2 "m1" f "b" hf).1 hp⟩

def urgentFrame (id : MessageId) (sender recipient : PeerId) : Message where
  id := id
  sender := sender
  recipient := recipient
  appId := "app"
  priority := .high
  ttl := 5
  hopCount := 1
  content := ""
  binaryContent := none
  mediaMetadata := none
  metadata := ∅

/-- With room for one forward, an urgent frame displaces the marked forward of
`m1`. The held frame stays on its way to `b` with no forward left to say
otherwise, and no neighbor is a candidate for it any more. -/
theorem in_flight_after_displacement :
    let e := (run "d" { MeshRelayConfig.default (F := ℚ) with queueCapacity := 1 } narrowConfig
      (heldAndQueued ++ [.now (.admitMessage (urgentFrame "m2" "c" "s") (some "c") 2)])).1
    (get e.custody.entries "m1").map (·.inFlight) = some (some "b") ∧
      e.mesh.pending.map (fun r => (r.message.id, r.custodyTarget)) = [("m2", none)] ∧
      e.custody.candidatesFor "b" = [] ∧ e.custody.candidatesFor "r" = [] := by
  decide +kernel

end MeshEngine

end OfflineProtocol
