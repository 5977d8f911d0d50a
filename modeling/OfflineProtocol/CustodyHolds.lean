import OfflineProtocol.MeshCoherence

/-! One hold of a frame, from the deposit to the occurrence that ends it, and
the neighbors it is re-originated toward meanwhile. -/
namespace OfflineProtocol
open KeyedTable EventTrace Function CustodyStore Finset List

def MeshEvent.EndsHold (x : MessageId) : MeshEvent → Prop
  | .dropped y => y = x
  | .delivered r _ => r.message.id = x
  | .erased => True
  | _ => False

def MeshEvent.reOriginatedTo (x : MessageId) : MeshEvent → Option PeerId
  | .reOriginated r peer => if r.message.id = x then some peer else none
  | _ => none

instance (x : MessageId) (e : MeshEvent) : Decidable (e.EndsHold x) := by
  apply @MeshEvent.casesOn (fun e => Decidable (e.EndsHold x)) e <;> intros <;>
    dsimp only [MeshEvent.EndsHold] <;> infer_instance

namespace MeshState
variable {retention : ℕ} {s s' : MeshState} {e : MeshEvent} {r : PendingRelay}
  {f₀ f : HeldFrame} {sent : List PeerId}

structure HoldOpen (s : MeshState) (f₀ f : HeldFrame) (sent : List PeerId) : Prop where
  held : s.held f₀.message.id = some f
  message : f.message = f₀.message
  depositor : f.depositor = f₀.depositor
  nodup : sent.Nodup
  others : ∀ p ∈ sent, p ≠ f₀.message.recipient ∧ p ≠ f₀.depositor
  tried : ∀ p ∈ sent, p ∈ f.tried
  bound : (f.tried.erase f₀.message.recipient).card ≤ maxCustodyNeighboursPerHold
  onWay : ∀ r ∈ markedIn s.waiting f₀.message.id, ∀ p, r.custodyTarget = some p →
    p ≠ f₀.depositor ∧ p ∉ sent ∧ p ∈ f.tried ∧ r.message = f₀.message

lemma HoldOpen.sent_le (h : s.HoldOpen f₀ f sent) :
    sent.length ≤ maxCustodyNeighboursPerHold := by
  have hsub : sent.toFinset ⊆ f.tried.erase f₀.message.recipient := by
    intro p hp
    have hp' := mem_toFinset.1 hp
    exact mem_erase.2 ⟨(h.others p hp').1, h.tried p hp'⟩
  calc sent.length = sent.toFinset.card := (toFinset_card_of_nodup h.nodup).symm
    _ ≤ (f.tried.erase f₀.message.recipient).card := card_le_card hsub
    _ ≤ maxCustodyNeighboursPerHold := h.bound

lemma holdOpen_deposited (hen : s.Enabled retention (.deposited f))
    (hc : s.FreshDeposit (.deposited f)) :
    ((meshMachine retention).apply s (.deposited f)).HoldOpen f f [] where
  held := by simp [effect, onHeld]
  message := rfl
  depositor := rfl
  nodup := nodup_nil
  others _ hp := nomatch hp
  tried _ hp := nomatch hp
  bound := by simp [hen.2.1]
  onWay q hq := by
    obtain ⟨hq, hm, hx⟩ := mem_markedIn.1 hq
    exact absurd hx (hc q hq hm)

lemma HoldOpen.quiet (he : e.reOriginatedTo f₀.message.id = none) (h : s.HoldOpen f₀ f sent) :
    s.HoldOpen f₀ f (sent ++ (e.reOriginatedTo f₀.message.id).toList) := by
  rwa [he, Option.toList_none, append_nil]

section
variable (h : s.HoldOpen f₀ f sent)
include h

/-- An occurrence that leaves the held frame alone and brings no new forward
of it. -/
lemma HoldOpen.frame (hheld : s'.held f₀.message.id = some f)
    (hwait : ∀ q ∈ markedIn s'.waiting f₀.message.id, ∃ r ∈ markedIn s.waiting f₀.message.id,
      q.custodyTarget = r.custodyTarget ∧ q.message = r.message) : s'.HoldOpen f₀ f sent := by
  refine { h with held := hheld, onWay := fun q hq p hp => ?_ }
  obtain ⟨r, hr, htarget, hmessage⟩ := hwait q hq
  obtain ⟨h1, h2, h3, h4⟩ := h.onWay r hr p (htarget ▸ hp)
  exact ⟨h1, h2, h3, hmessage.trans h4⟩

lemma HoldOpen.at_rest
    (hheld : s'.held f₀.message.id = some f') (hnone : markedIn s'.waiting f₀.message.id = 0)
    (hmessage : f'.message = f.message) (hdeposit : f'.depositor = f.depositor)
    (hnodup : sent'.Nodup) (hothers : ∀ p ∈ sent', p ≠ f₀.message.recipient ∧ p ≠ f₀.depositor)
    (htried : ∀ p ∈ sent', p ∈ f'.tried) (hsub : f'.tried ⊆ f.tried) :
    s'.HoldOpen f₀ f' sent' where
  held := hheld
  message := hmessage.trans h.message
  depositor := hdeposit.trans h.depositor
  nodup := hnodup
  others := hothers
  tried := htried
  bound := (card_le_card (erase_subset_erase _ hsub)).trans h.bound
  onWay q hq := by
    rw [hnone] at hq
    exact absurd hq (Multiset.notMem_zero q)

section
variable (hflag : s.Flagged)
include hflag

lemma HoldOpen.queue (hx : r.message.id = f₀.message.id)
    (htarget : r.custodyTarget = some peer) (hfr : f.message = r.message)
    (hel : eligible f peer = true) (hw : s'.waiting = r ::ₘ s.waiting)
    (hheld : s'.held f₀.message.id = some (markQueuedFrame peer f)) :
    s'.HoldOpen f₀ (markQueuedFrame peer f) sent := by
  have hnone := hflag.none_waiting h.held (eligible_inFlight hel)
  have hm : r.Marked := by rw [PendingRelay.Marked, htarget]; rfl
  simp only [eligible, Bool.and_eq_true, decide_eq_true_eq, Bool.or_eq_true] at hel
  obtain ⟨⟨hdep, -⟩, hopen⟩ := hel
  rw [h.message] at hopen
  refine ⟨hheld, h.message, h.depositor, h.nodup, h.others,
    fun p hp => mem_insert_of_mem (h.tried p hp), ?_, fun q hq p hp => ?_⟩
  · unfold markQueuedFrame
    rcases hopen with hrec | ⟨-, hcard⟩
    · rw [← hrec, erase_insert_eq_erase]
      exact h.bound
    calc ((Insert.insert peer f.tried).erase f₀.message.recipient).card
        ≤ (Insert.insert peer f.tried).card := card_erase_le
      _ ≤ f.tried.card + 1 := card_insert_le _ _
      _ ≤ maxCustodyNeighboursPerHold := hcard
  · rw [hw, ← hx, markedIn_cons_marked hm, hx, hnone, Multiset.mem_cons] at hq
    obtain rfl := hq.resolve_right (Multiset.notMem_zero q)
    obtain rfl : peer = p := Option.some.inj (htarget.symm.trans hp)
    refine ⟨fun heq => hdep (h.depositor.trans heq.symm), fun hsent => ?_,
      mem_insert_self _ _, hfr.symm.trans h.message⟩
    rcases hopen with hrec | ⟨hnew, -⟩
    · exact (h.others peer hsent).1 hrec.symm
    · exact hnew (h.tried peer hsent)

lemma HoldOpen.transmitted (hr : r ∈ s.waiting)
    (hx : r.message.id = f₀.message.id) (htarget : r.custodyTarget = some peer)
    (hpeer : peer ≠ r.message.recipient) (hw : s'.waiting = s.waiting.erase r)
    (hheld : s'.held f₀.message.id = some (reOriginatedFrame f)) :
    s'.HoldOpen f₀ (reOriginatedFrame f) (sent ++ [peer]) := by
  have hm : r.Marked := by rw [PendingRelay.Marked, htarget]; rfl
  obtain ⟨hdep, hnew, htried, hmessage⟩ := h.onWay r (mem_markedIn.2 ⟨hr, hm, hx⟩) peer htarget
  refine h.at_rest hheld ?_ rfl rfl ?_ ?_ ?_ (Subset.refl _)
  · rw [hw, ← hx]
    exact hflag.settled hr hm
  · exact nodup_append.2 ⟨h.nodup, nodup_singleton peer, fun a ha b hb hab =>
      hnew (List.mem_singleton.1 hb ▸ hab ▸ ha)⟩
  · exact forall_mem_append.2 ⟨h.others, forall_mem_singleton.2 ⟨hmessage ▸ hpeer, hdep⟩⟩
  · exact forall_mem_append.2 ⟨h.tried, forall_mem_singleton.2 htried⟩

lemma HoldOpen.untried (hr : r ∈ s.waiting)
    (hx : r.message.id = f₀.message.id) (hm : r.Marked) (hw : s'.waiting = s.waiting.erase r)
    (hheld : s'.held f₀.message.id = some (returnedFrame f)) :
    s'.HoldOpen f₀ (returnedFrame f) sent := by
  obtain ⟨peer, hpeer⟩ := Option.isSome_iff_exists.1 hm
  have hmem : r ∈ markedIn s.waiting f₀.message.id := mem_markedIn.2 ⟨hr, hm, hx⟩
  obtain ⟨-, hnew, -, -⟩ := h.onWay r hmem peer hpeer
  have hback : returnedFrame f =
      { f with inFlight := none, tried := f.tried.erase peer } := by
    simp only [returnedFrame, hflag.flag _ f h.held r hmem, hpeer]
  rw [hback] at hheld ⊢
  refine h.at_rest hheld ?_ rfl rfl h.nodup h.others (fun p hp => ?_) (erase_subset _ _)
  · rw [hw, ← hx]
    exact hflag.settled hr hm
  · exact mem_erase.2 ⟨fun heq => hnew (heq ▸ hp), h.tried p hp⟩

lemma HoldOpen.step (hen : s.Enabled retention e) (hend : ¬ e.EndsHold f₀.message.id) :
    ∃ f', ((meshMachine retention).apply s e).HoldOpen f₀ f'
      (sent ++ (e.reOriginatedTo f₀.message.id).toList) := by
  have hsame : ∀ q ∈ markedIn s.waiting f₀.message.id, ∃ r ∈ markedIn s.waiting f₀.message.id,
      q.custodyTarget = r.custodyTarget ∧ q.message = r.message :=
    fun q hq => ⟨q, hq, rfl, rfl⟩
  have hsub : ∀ {w : Multiset PendingRelay}, w ≤ s.waiting →
      ∀ q ∈ markedIn w f₀.message.id, ∃ r ∈ markedIn s.waiting f₀.message.id,
        q.custodyTarget = r.custodyTarget ∧ q.message = r.message :=
    fun hle q hq => hsame q (Multiset.mem_of_le (Multiset.filter_le_filter _ hle) hq)
  have herase : ∀ r, s.waiting.erase r ≤ s.waiting := fun r => Multiset.erase_le r s.waiting
  cases e with
  | tick | arrived | expired | capacityDropped | handled =>
    exact ⟨f, .quiet rfl (h.frame h.held hsame)⟩
  | displaced r | abandoned r | carried r | covered r | refused r =>
    exact ⟨f, .quiet rfl (h.frame h.held (hsub (herase r)))⟩
  | narrowed r peer =>
    refine ⟨f, .quiet rfl (h.frame h.held fun q hq => ?_)⟩
    obtain ⟨hq, hm, hx⟩ := mem_markedIn.1 hq
    rcases Multiset.mem_cons.1 hq with rfl | hq
    · exact ⟨r, mem_markedIn.2 ⟨hen.1, hm, hx⟩, rfl, rfl⟩
    · exact hsub (herase r) q (mem_markedIn.2 ⟨hq, hm, hx⟩)
  | queued r resend =>
    refine ⟨f, .quiet rfl (h.frame h.held fun q hq => hsame q ?_)⟩
    exact (markedIn_cons_ordinary hen.1 f₀.message.id) ▸ hq
  | queuedHeld r peer =>
    obtain ⟨htarget, -, g, hg, hgr, hel⟩ := hen
    by_cases hx : r.message.id = f₀.message.id
    · obtain rfl : f = g := Option.some.inj (h.held.symm.trans (hx ▸ hg))
      refine ⟨_, .quiet rfl (h.queue hflag hx htarget hgr hel rfl ?_)⟩
      simp [effect, onHeld, hx, h.held]
    refine ⟨f, .quiet rfl (h.frame ?_ fun q hq => hsame q ?_)⟩
    · simpa [effect, onHeld, update_of_ne (Ne.symm hx)] using h.held
    · exact (markedIn_cons_ne (Ne.symm hx)) ▸ hq
  | reOriginated r peer =>
    obtain ⟨hr, htarget, hpeer⟩ := hen
    by_cases hx : r.message.id = f₀.message.id
    · refine ⟨reOriginatedFrame f, ?_⟩
      rw [MeshEvent.reOriginatedTo, if_pos hx]
      refine h.transmitted hflag hr hx htarget hpeer rfl ?_
      simp [effect, onHeld, settle, hx, h.held]
    · refine ⟨f, .quiet (if_neg hx) (h.frame ?_ (hsub (herase r)))⟩
      simpa [effect, onHeld, settle, update_of_ne (Ne.symm hx)] using h.held
  | delivered r peer =>
    refine ⟨f, .quiet rfl (h.frame ?_ (hsub (herase r)))⟩
    have hx : f₀.message.id ≠ r.message.id := Ne.symm hend
    simpa [effect, onHeld, settle, update_of_ne hx] using h.held
  | returned r =>
    by_cases hx : r.message.id = f₀.message.id
    · refine ⟨_, .quiet rfl (h.untried hflag hen.1 hx hen.2 rfl ?_)⟩
      simp [effect, onHeld, settle, hx, h.held]
    refine ⟨f, .quiet rfl (h.frame ?_ (hsub (herase r)))⟩
    simpa [effect, onHeld, settle, update_of_ne (Ne.symm hx)] using h.held
  | deposited g =>
    have hx : f₀.message.id ≠ g.message.id := fun hx => by
      have hnone := hen.1
      rw [← hx, h.held] at hnone
      cases hnone
    refine ⟨f, .quiet rfl (h.frame ?_ hsame)⟩
    simpa [effect, onHeld, update_of_ne hx] using h.held
  | dropped y =>
    have hx : f₀.message.id ≠ y := Ne.symm hend
    refine ⟨f, .quiet rfl (h.frame ?_ hsame)⟩
    simpa [effect, onHeld, update_of_ne hx] using h.held
  | erased => exact absurd trivial hend

lemma HoldOpen.run (hruns : (meshMachine retention).Runs s es s')
    (hc : (meshMachine retention).Along FreshDeposit s es)
    (hend : ∀ e ∈ es, ¬ e.EndsHold f₀.message.id) :
    s'.Flagged ∧
      ∃ f', s'.HoldOpen f₀ f' (sent ++ es.filterMap (·.reOriginatedTo f₀.message.id)) := by
  obtain ⟨rfl, hen⟩ := hruns
  induction es generalizing s f sent with
  | nil => exact ⟨hflag, f, by simpa using h⟩
  | cons e es ih =>
    obtain ⟨f', hstep⟩ := h.step hflag hen.1 (hend e (.head _))
    obtain ⟨hlast, f'', hopen⟩ := ih hstep (hflag.step hen.1 hc.1) hc.2
      (fun e' he' => hend e' (.tail _ he')) hen.2
    refine ⟨hlast, f'', ?_⟩
    cases hto : e.reOriginatedTo f₀.message.id with
    | none => simpa [hto] using hopen
    | some p => simpa [hto] using hopen

end

end

end MeshState

namespace MeshEngine
variable {F : Type*} [AirArith F]

/-- In every run without a deposit over a marked forward left from an earlier
hold: during one hold a neighbor other than the recipient gets the frame at
most once, the depositor never, and at most `maxCustodyNeighboursPerHold` of
them do. The hand-over that ends the hold goes to the recipient. -/
theorem one_re_origination_per_neighbour (localId : String) (config : MeshRelayConfig F)
    (custody : CustodyConfig) (steps : List Step)
    (hfresh : (meshMachine config.seen.retention).Along MeshState.FreshDeposit MeshState.start
      (run localId config custody steps).2) :
    ∀ l₁ f l₂ l₃, (run localId config custody steps).2 = l₁ ++ .deposited f :: (l₂ ++ l₃) →
      (∀ e ∈ l₂, ¬ e.EndsHold f.message.id) →
      let sent := l₂.filterMap (·.reOriginatedTo f.message.id)
      sent.Nodup ∧ f.depositor ∉ sent ∧ f.message.recipient ∉ sent ∧
        sent.length ≤ maxCustodyNeighboursPerHold ∧
        ∀ r peer l₄, l₃ = .delivered r peer :: l₄ → r.message.id = f.message.id →
          peer = f.message.recipient ∧ peer ≠ f.depositor := by
  intro l₁ f l₂ l₃ hlog hend sent
  obtain ⟨-, hruns⟩ := run_refines localId config custody steps
  rw [hlog] at hruns hfresh
  obtain ⟨hbefore, hen, hafter⟩ := hruns.split
  obtain ⟨hfresh₁, hdepo, hfresh₂⟩ := (Machine.along_append _ _).1 hfresh
  have hflag := MeshState.Flagged.of_runs hbefore hfresh₁
  obtain ⟨hrepl, halong⟩ := hafter
  obtain ⟨hen₂, hen₃⟩ := (Machine.along_append _ _).1 halong
  obtain ⟨hflag', f', hopen⟩ := (MeshState.holdOpen_deposited hen hdepo).run
    (hflag.step hen hdepo) ⟨rfl, hen₂⟩ ((Machine.along_append _ _).1 hfresh₂).1 hend
  rw [nil_append] at hopen
  refine ⟨hopen.nodup, fun h => (hopen.others _ h).2 rfl, fun h => (hopen.others _ h).1 rfl,
    hopen.sent_le, fun r peer l₄ hl₃ hx => ?_⟩
  rw [hl₃] at hen₃
  obtain ⟨hr, htarget, hpeer⟩ := hen₃.1
  have hm : r.Marked := by rw [PendingRelay.Marked, htarget]; rfl
  obtain ⟨hdep, -, -, hmessage⟩ := hopen.onWay r (mem_markedIn.2 ⟨hr, hm, hx⟩) peer htarget
  exact ⟨hpeer.trans (congrArg _ hmessage), hdep⟩

theorem one_re_origination_delivered :
    let log := (run "d" (MeshRelayConfig.default (F := ℚ)) narrowConfig
      (heldAndQueued ++ [.flushTo 0 ["b"], .now (.redeliver "r" ["r"] true true),
        .flushTo 0 ["r"]])).2
    log.filterMap (·.reOriginatedTo "m1") = ["b"] ∧
      ∀ l₁ f l₂ l₃, log = l₁ ++ .deposited f :: (l₂ ++ l₃) → (∀ e ∈ l₂, ¬ e.EndsHold f.message.id) →
        f.depositor ∉ l₂.filterMap (·.reOriginatedTo f.message.id) := by
  intro log
  refine ⟨by decide +kernel, fun l₁ f l₂ l₃ hlog hend => ?_⟩
  exact (one_re_origination_per_neighbour "d" (.default (F := ℚ))
    narrowConfig _ (by decide +kernel) l₁ f l₂ l₃ hlog hend).2.1

/-- The frame of `m1` is queued toward `b`, reaches the end of its hold, and is
deposited again. The forward of the first hold then goes out in the second one,
whose own forward follows: `b` gets the frame twice during one hold. -/
theorem re_originated_twice_in_one_hold :
    let frame : HeldFrame :=
      { message := (sealedDeposit "m1" "a" "r").message
        depositor := "a", acceptedAtMs := 0, frameClass := "data", bytes := 17
        tried := ∅, inFlight := none }
    let w := run "d" (MeshRelayConfig.default (F := ℚ)) narrowConfig (heldAndQueued ++
        [.now (.sweep 2000), .now (.judge (sealedDeposit "m1" "a" "r"))])
    let hold := (runSteps step w.1
      [.flushTo 0 ["b"], .now (.redeliver "b" ["b"] true true), .flushTo 0 ["b"]]).2
    w.2.getLast? = some (.deposited frame) ∧ (∀ e ∈ hold, ¬ e.EndsHold "m1") ∧
      hold.filterMap (·.reOriginatedTo "m1") = ["b", "b"] := by
  decide +kernel

end MeshEngine

end OfflineProtocol
