import OfflineProtocol.EventTrace
import OfflineProtocol.WireCodec

/-!
# Lamport clocks across the wire

A device ticks its clock for each message it sends and merges the clock of each message it
receives. The wire carries any 64-bit number and a decoder lowers it to the bound. Two
messages at the bound are decoded alike.
-/

namespace OfflineProtocol.Wire.LamportClock
open EventTrace UInt64 Function

def saturatingAdd (a b : UInt64) : UInt64 :=
  if a.toNat + b.toNat < 2 ^ 64 then a + b else 0xFFFFFFFFFFFFFFFF

def tick (clock : UInt64) : UInt64 := saturatingAdd clock 1

def merge (clock received : UInt64) : UInt64 :=
  saturatingAdd (max clock (min received lamportClockMax)) 1

/-- A message of a blocked sender changes no clock and is no step. -/
inductive ClockStep (δ : Type*)
  | send (device : δ)
  | receive (device : δ) (wire : UInt64)
  /-- A message that waited for its session is decrypted and merged again. -/
  | processPending (device : δ) (wire : UInt64)

/-- A message that a device sent or received, with the clock on the wire. -/
structure ClockEvent (δ : Type*) where
  device : δ
  sent : Bool
  wire : UInt64

section
variable {δ : Type*} [DecidableEq δ] {clocks : δ → UInt64} {past : List (ClockEvent δ)}

def step (clocks : δ → UInt64) : ClockStep δ → (δ → UInt64) × List (ClockEvent δ)
  | .send d => (Function.update clocks d (tick (clocks d)), [⟨d, true, tick (clocks d)⟩])
  | .receive d wire =>
    -- A decoded clock of zero is not merged.
    (if 0 < fromValue wire then Function.update clocks d (merge (clocks d) (fromValue wire))
      else clocks, [⟨d, false, wire⟩])
  | .processPending d wire =>
    (Function.update clocks d (merge (clocks d) (fromValue wire)), [⟨d, false, wire⟩])

lemma fromValue_toNat (value) : (fromValue value).toNat = min value.toNat (2 ^ 63 - 1) := by
  have hmax : lamportClockMax.toNat = 2 ^ 63 - 1 := rfl
  unfold fromValue
  split <;> rename_i h <;> rw [le_iff_toNat_le] at h <;> omega

lemma saturatingAdd_toNat (clock) :
    (saturatingAdd clock 1).toNat = min (clock.toNat + 1) (2 ^ 64 - 1) := by
  have hclock := clock.toNat_lt
  have hone : (1 : UInt64).toNat = 1 := rfl
  unfold saturatingAdd
  split
  · rw [UInt64.toNat_add]
    omega
  have hmax : (0xFFFFFFFFFFFFFFFF : UInt64).toNat = 2 ^ 64 - 1 := rfl
  omega

lemma le_tick (clock) : clock ≤ tick clock := by
  have hclock := clock.toNat_lt
  rw [le_iff_toNat_le, tick, saturatingAdd_toNat]
  omega

lemma le_max {a b : UInt64} : a ≤ max a b ∧ b ≤ max a b := by
  change a ≤ (if a ≤ b then b else a) ∧ b ≤ (if a ≤ b then b else a)
  split
  · next h => exact ⟨h, UInt64.le_refl b⟩
  · next h => exact ⟨UInt64.le_refl a, (UInt64.le_total a b).resolve_left h⟩

lemma le_merge {clock wire : UInt64} :
    clock ≤ merge clock (fromValue wire) ∧ fromValue wire ≤ merge clock (fromValue wire) := by
  have hclamp : fromValue (fromValue wire) = fromValue wire := by
    refine UInt64.toNat_inj.1 ?_
    rw [fromValue_toNat, fromValue_toNat]
    omega
  have h : ∀ c ≤ max clock (fromValue wire), c ≤ tick (max clock (fromValue wire)) :=
    fun _ hc => UInt64.le_trans hc (le_tick _)
  change clock ≤ tick (max clock (fromValue (fromValue wire))) ∧
    fromValue wire ≤ tick (max clock (fromValue (fromValue wire)))
  rw [hclamp]
  exact ⟨h _ le_max.1, h _ le_max.2⟩

/-- A stamp one above what the device has seen is above it, decoded, below the bound. -/
lemma fromValue_lt_tick (h : fromValue a ≤ clock) :
    fromValue a < fromValue (tick clock) ↔ fromValue a < lamportClockMax := by
  have hmax : lamportClockMax.toNat = 2 ^ 63 - 1 := rfl
  rw [le_iff_toNat_le] at h
  rw [lt_iff_toNat_lt, lt_iff_toNat_lt, fromValue_toNat (tick clock), tick, saturatingAdd_toNat]
  omega

lemma fromValue_le (value) : fromValue value ≤ value := by
  rw [le_iff_toNat_le, fromValue_toNat]
  exact min_le_left _ _

/-- A later message of the same device is decoded above an earlier one below the bound. -/
def DecodedAbove (earlier later : ClockEvent δ) : Prop :=
  later.sent = true → earlier.device = later.device →
    (fromValue earlier.wire < fromValue later.wire ↔ fromValue earlier.wire < lamportClockMax)

/-- Each clock is at or above the decoded clocks its device has sent or received. -/
structure Caught (clocks : δ → UInt64) (past : List (ClockEvent δ)) : Prop where
  ordered : past.Pairwise DecodedAbove
  reached : ∀ e ∈ past, fromValue e.wire ≤ clocks e.device

lemma Caught.extend (h : Caught clocks past)
    (hle : clocks e.device ≤ clock) (hwire : fromValue e.wire ≤ clock)
    (hsent : e.sent = true → e.wire = tick (clocks e.device)) :
    Caught (Function.update clocks e.device clock) (past ++ [e]) where
  ordered := by
    refine List.pairwise_append.2 ⟨h.ordered, List.pairwise_singleton _ _, ?_⟩
    -- Only the pairs that end in the new message are new.
    intro a ha b hb hs hdev
    obtain rfl := List.mem_singleton.1 hb
    rw [hsent hs]
    exact fromValue_lt_tick (hdev ▸ h.reached a ha)
  reached a ha := by
    rcases List.mem_append.1 ha with ha | ha
    · have hreach := h.reached a ha
      by_cases hd : a.device = e.device
      · rw [hd, update_self]
        exact UInt64.le_trans (hd ▸ hreach) hle
      · rwa [update_of_ne hd]
    · obtain rfl := List.mem_singleton.1 ha
      rwa [update_self]

lemma step_caught (op) (h : Caught clocks past) :
    Caught (step clocks op).1 (past ++ (step clocks op).2) := by
  cases op with
  | send d => exact h.extend (e := ⟨d, true, _⟩) (le_tick _) (fromValue_le _) fun _ => rfl
  | processPending d wire =>
    exact h.extend (e := ⟨d, false, wire⟩) le_merge.1 le_merge.2 nofun
  | receive d wire =>
    simp only [step]
    split
    · exact h.extend (e := ⟨d, false, wire⟩) le_merge.1 le_merge.2 nofun
    next hzero =>
    -- An unmerged clock is zero, so every clock is at or above it.
    have hwire : fromValue wire ≤ clocks d := UInt64.le_trans (UInt64.not_lt.1 hzero) UInt64.zero_le
    have hstay := h.extend (e := ⟨d, false, wire⟩) (UInt64.le_refl (clocks d)) hwire nofun
    rwa [update_eq_self] at hstay

/-- Along every run, whatever clocks the devices start with and the wire carries, a message
that a device sends after it sent or received another is decoded above it exactly when the
other is decoded below the bound. -/
theorem decoded_clocks_increase (clocks : δ → UInt64) (steps : List (ClockStep δ)) :
    (runSteps step clocks steps).2.Pairwise DecodedAbove := by
  have halong : AlongSteps step (fun _ _ => True) clocks steps := by
    induction steps generalizing clocks with
    | nil => trivial
    | cons op steps ih => exact ⟨trivial, ih _⟩
  have hstart : Caught clocks [] := ⟨List.Pairwise.nil, nofun⟩
  exact (runSteps_invariant (fun _ op _ h _ => step_caught op h) halong hstart).ordered

end

/-- A peer claims the bound: the answer that follows its message is decoded at the bound too,
and so is the next one. -/
theorem claimed_bound_not_exceeded :
    (runSteps step (fun _ : Unit => 0) [.receive () lamportClockMax, .send (), .send ()]).2.map
      (fun e => (e.sent, fromValue e.wire)) =
      [(false, lamportClockMax), (true, lamportClockMax), (true, lamportClockMax)] := by
  decide

end OfflineProtocol.Wire.LamportClock
