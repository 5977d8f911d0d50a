import OfflineProtocol.FragmentAttribution

/-! What the Bluetooth assemblies may come to hold, whatever bytes arrive. -/
namespace OfflineProtocol
open ByteFraming EventTrace KeyedTable List

/-- An assembly that misses a fragment and counts the bytes of those it stores. -/
structure FragmentAssembly.Fits (a : FragmentAssembly) : Prop where
  count : a.totalFragments ≤ bleMaxFragmentCount
  indexed : ∀ i ∈ a.fragments, i < a.totalFragments
  bytes : a.bufferedBytes = tally a.fragments length
  size : a.bufferedBytes ≤ bleMaxMessageSize
  missing : a.fragments.entries.length < a.totalFragments

namespace FragmentBuffers

structure Bounded (buffers : FragmentBuffers) : Prop where
  few : buffers.entries.length ≤ bleMaxFragmentAssemblies
  each : ∀ id a, get buffers id = some a → a.Fits

variable {buffers left : FragmentBuffers} {f : DecodedFragment} {fragments : Table ℕ Bytes}
variable {M : Type} {host : BleHost M}

lemma Bounded.of_get (h : Bounded buffers)
    (hsub : ∀ id a, get left id = some a → get buffers id = some a) : Bounded left :=
  ⟨(length_le_of_get hsub).trans h.few, fun id a ha => h.each id a (hsub id a ha)⟩

lemma Bounded.cleanup (h : Bounded buffers) (now) :
    Bounded (cleanupFragmentBuffers buffers now) := by
  refine h.of_get fun id a ha => ?_
  rw [cleanupFragmentBuffers, get_retain] at ha
  exact (Option.filter_eq_some_iff.1 ha).1

/-- After an eviction the message has its assembly or there is room for one. -/
lemma Bounded.evict (h : Bounded buffers) (order now id) :
    Bounded (evictAssembly buffers order now id) ∧ (id ∈ evictAssembly buffers order now id ∨
      (evictAssembly buffers order now id).entries.length < bleMaxFragmentAssemblies) := by
  unfold evictAssembly
  split_ifs with hfull
  · cases hvictim : (visit buffers order).argmin fun e => e.2.evictionPriority now with
    | none =>
      refine ⟨h, .inr (?_ : buffers.entries.length < _)⟩
      cases hentries : buffers.entries with
      | nil => exact Nat.zero_lt_succ 63
      | cons e es =>
        have hmem : (e.1, e.2) ∈ visit buffers order :=
          mem_visit.2 (get_eq_some_iff.2 (hentries ▸ .head es))
        rw [argmin_eq_none.1 hvictim] at hmem
        cases hmem
    | some victim =>
      have hless := tally_erase buffers (fun _ => 1) (mem_visit.1 (argmin_mem hvictim))
      rw [tally_one, tally_one] at hless
      exact ⟨h.of_get fun _ _ ha => (of_get_erase ha).2,
        .inr (Nat.lt_of_succ_le (hless.trans_le h.few))⟩
  · exact ⟨h, (Decidable.not_and_iff_or_not.1 hfull).imp not_not.1 not_le.1⟩

/-- Indices below `n` are at most `n`, and all of them when there are `n`. -/
lemma indices_below (h : ∀ i ∈ fragments, i < n) : fragments.entries.length ≤ n ∧
    (fragments.entries.length = n → ∀ i < n, i ∈ fragments) := by
  have hsub : fragments.keys <+~ range n :=
    subperm_of_subset fragments.keys_nodup fun i hi => mem_range.2 (h i hi)
  have hlen : fragments.keys.length = fragments.entries.length := length_map _
  refine ⟨by simpa only [hlen, length_range] using hsub.length_le, fun hfull i hi => ?_⟩
  have hperm := hsub.perm_of_length_le (by rw [length_range, hlen, hfull])
  exact hperm.mem_iff.2 (mem_range.2 hi)

lemma payloadsBelow_ok (h : ∀ i < n, i ∈ fragments) :
    ∃ parts, payloadsBelow fragments n = .ok parts := by
  induction n with
  | zero => exact ⟨[], rfl⟩
  | succ n ih =>
    obtain ⟨parts, hparts⟩ := ih fun i hi => h i (Nat.lt_succ_of_lt hi)
    obtain ⟨data, hdata⟩ := exists_get_of_mem (h n n.lt_succ_self)
    exact ⟨parts ++ [data], by simp only [payloadsBelow, hparts, hdata]⟩

lemma tally_length_insert (i data) : tally (fragments.insert i data) length =
    tally fragments length - ((get fragments i).map length).getD 0 + data.length := by
  cases h : get fragments i with
  | none => exact (tally_insert_new fragments length (get_eq_none_iff.1 h)).trans (add_comm _ _)
  | some old =>
    rw [tally_insert, ← tally_erase fragments length h, add_comm]
    simp

lemma Bounded.assembly (h : Bounded buffers) (hcount : f.totalFragments ≤ bleMaxFragmentCount)
    (hindex : f.fragmentIndex < f.totalFragments) (now) : (assemblyOf buffers f now).Fits := by
  unfold assemblyOf
  cases ha : get buffers f.messageId with
  | none =>
    exact ⟨hcount, fun i hi => absurd hi (AList.notMem_empty i), rfl, Nat.zero_le _,
      Nat.zero_lt_of_lt hindex⟩
  | some a => exact h.each _ a ha

lemma Bounded.insertFragment (h : Bounded buffers)
    (hcount : f.totalFragments ≤ bleMaxFragmentCount) (hindex : f.fragmentIndex < f.totalFragments)
    (hroom : f.messageId ∈ buffers ∨ buffers.entries.length < bleMaxFragmentAssemblies) (now) :
    Bounded (insertFragment buffers f now).1 := by
  have ha := h.assembly hcount hindex now
  unfold OfflineProtocol.insertFragment
  generalize assemblyOf buffers f now = a at ha
  dsimp only
  split_ifs with htotal hsize hall
  · exact h
  · exact h.of_get fun _ _ hs => (of_get_erase hs).2
  all_goals
    have hbelow : ∀ i ∈ a.fragments.insert f.fragmentIndex f.data, i < a.totalFragments := by
      intro i hi
      rcases (AList.mem_insert _).1 hi with rfl | hi
      · exact (not_not.1 htotal).symm ▸ hindex
      · exact ha.indexed i hi
  · obtain ⟨parts, hparts⟩ := payloadsBelow_ok ((indices_below hbelow).2 hall)
    rw [hparts]
    refine h.of_get fun id s hs => ?_
    obtain ⟨hne, hs⟩ := of_get_erase hs
    rwa [get_insert_ne hne] at hs
  · refine ⟨?_, fun id s hs => ?_⟩
    · rcases hroom with hmem | hlt
      · exact (length_insert_mem hmem).trans h.few
      · exact (length_insert_le buffers).trans hlt
    rcases of_get_insert hs with ⟨-, rfl⟩ | ⟨-, hs⟩
    · exact ⟨ha.count, hbelow, by rw [ha.bytes, tally_length_insert], not_lt.1 hsize,
        (indices_below hbelow).1.lt_of_ne hall⟩
    · exact h.each id s hs

lemma Bounded.processFragment (h : Bounded buffers) (order now bytes) :
    Bounded (processFragment host buffers order now bytes).1 := by
  have hleft := h.cleanup now
  unfold OfflineProtocol.processFragment
  cases decodeFragment host bytes with
  | error e => exact hleft
  | ok f =>
    dsimp only
    split_ifs with hcount hindex hone
    · exact hleft
    · exact hleft
    · exact hleft
    obtain ⟨hleft, hroom⟩ := hleft.evict order now f.messageId
    have hnext := hleft.insertFragment (not_lt.1 hcount) (not_le.1 hindex) hroom now
    split
    all_goals exact hnext

/-- Either a fragment arrives or the host has the buffers cleaned up. -/
def serve (host : BleHost M) (w : BleReceiver) : Arrival ⊕ ℕ → BleReceiver × List (Received M)
  | .inl a => w.onFragmentReceivedFrom host a
  | .inr now => (⟨cleanupFragmentBuffers w.buffers now, w.past⟩, [])

/-- In every run there are at most 64 assemblies, each of at most 1 MiB and none complete. -/
theorem buffers_bounded (host : BleHost M) (ops : List (Arrival ⊕ ℕ)) :
    let buffers := (runSteps (serve host) ⟨∅, []⟩ ops).1.buffers
    buffers.entries.length ≤ bleMaxFragmentAssemblies ∧
      ∀ id a, get buffers id = some a → a.Fits := by
  have hempty : Bounded ∅ := ⟨Nat.zero_le _, fun _ _ h => by cases h⟩
  have hrun : Bounded (runSteps (serve host) ⟨∅, []⟩ ops).1.buffers := by
    refine runSteps_preserves (P := fun w => Bounded (BleReceiver.buffers w)) ?_ ops hempty
    intro w op h
    cases op with
    | inl a => exact h.processFragment a.order a.now a.bytes
    | inr now => exact h.cleanup now
  exact ⟨hrun.few, hrun.each⟩

end FragmentBuffers
end OfflineProtocol
