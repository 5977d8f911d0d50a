import OfflineProtocol.RelaySeen

/-! Runs of the suppression cache, with a log of what became of each id. -/
namespace OfflineProtocol.RelaySeenCache
open KeyedTable List

inductive Event
  | observed (id : MessageId) (time : ℕ) (outcome : SeenOutcome)
  | forgotten (id : MessageId)
  | evicted (id : MessageId)
deriving DecidableEq

def Event.isEvicted : Event → Bool
  | .evicted _ => true
  | _ => false

/-- `id` was observed at `t` with this outcome, and neither forgotten nor
evicted since. -/
def Stands (id : MessageId) (t : ℕ) (outcome : SeenOutcome) : List Event → Prop
  | [] => False
  | e :: log =>
    e = .observed id t outcome ∨ e ≠ .forgotten id ∧ e ≠ .evicted id ∧ Stands id t outcome log

/-- The log after an observation, newest event first. Evicted are the ids that
the call drops though the expiry left them. -/
def logged (c : RelaySeenCache) (now : ℕ) (id : MessageId) (recorded : ℕ) (log : List Event) :
    List Event :=
  let r := c.observeAt now id recorded
  .observed id recorded r.2.1 :: (((c.expire now).order.filter (· ∉ r.1.entries)).map .evicted ++ log)

/-- The caches that calls at non-decreasing readings of the clock lead to, with
the last reading and the log. -/
inductive Reach (config : RelaySeenConfig) : ℕ → RelaySeenCache → List Event → Prop
  | new (clock) : Reach config clock (withConfig config) []
  | observe (id : MessageId) : Reach config clock c log → clock ≤ now → now ≤ recorded →
    Reach config recorded (c.observeAt now id recorded).1 (c.logged now id recorded log)
  | forget (id : MessageId) : Reach config clock c log → clock ≤ now →
    Reach config now (c.forget id) (.forgotten id :: log)
  | expire : Reach config clock c log → clock ≤ now → Reach config now (c.expire now) log
  | contains : Reach config clock c log → clock ≤ now → Reach config now c log

/-- What a run keeps: the map and the order agree and stay within the capacity,
the counter counts the logged evictions up to its own limit, and the map holds
the fresh observations that stand, those past the retention perhaps left out. -/
structure Tracked (config : RelaySeenConfig) (clock : ℕ) (c : RelaySeenCache) (log : List Event) :
    Prop where
  config_eq : c.config = (withConfig config).config
  wf : c.WellFormed clock
  size_le : c.entries.entries.length ≤ max config.capacity 1
  counted : c.capacityEvictions = min (log.countP Event.isEvicted) (2 ^ 64 - 1)
  recorded : ∀ x t, get c.entries x = some t → Stands x t .fresh log
  held : ∀ x t, Stands x t .fresh log → clock - t < config.retention → get c.entries x = some t

variable {config : RelaySeenConfig} {c : RelaySeenCache} {log : List Event}
  {clock now recorded t : ℕ} {id : MessageId}

lemma stands_evicted (ids : List MessageId) :
    Stands id t outcome (ids.map .evicted ++ log) ↔ id ∉ ids ∧ Stands id t outcome log := by
  induction ids with
  | nil => simp
  | cons x xs ih => simp [Stands, ih, eq_comm, and_assoc]

section
variable (h : Tracked config clock c log) (hle : clock ≤ now)
include h

include hle in
lemma Tracked.mono : Tracked config now c log :=
  { h with
    wf := h.wf.mono hle
    held := fun x t hs hlt => h.held x t hs (by omega) }

lemma Tracked.expired (now x t) : get (c.expire now).entries x = some t ↔
    get c.entries x = some t ∧ now - t < config.retention := by
  rw [get_expire h.wf, Option.filter_eq_some_iff, decide_eq_true_eq, h.config_eq]
  rfl

include hle in
lemma Tracked.expire : Tracked config now (c.expire now) log := by
  have hget := h.expired now
  have hsub := fun x t hx => ((hget x t).1 hx).1
  exact ⟨h.config_eq, (h.wf.expire now).mono hle, (length_le_of_get hsub).trans h.size_le, h.counted,
    fun x t hx => h.recorded x t (hsub x t hx),
    fun x t hs hlt => (hget x t).2 ⟨h.held x t hs (by omega), hlt⟩⟩

lemma Tracked.forget (id) : Tracked config clock (c.forget id) (.forgotten id :: log) := by
  have hget : ∀ x t, get (c.forget id).entries x = some t ↔ x ≠ id ∧ get c.entries x = some t :=
    fun x t => by simp [get_forget]
  refine ⟨forget_config.trans h.config_eq, h.wf.forget id,
    (length_le_of_get fun x t hx => ((hget x t).1 hx).2).trans h.size_le, ?_, fun x t hx => ?_,
    fun x t hs hlt => ?_⟩
  · unfold RelaySeenCache.forget
    split_ifs <;> exact h.counted
  · obtain ⟨hne, hx⟩ := (hget x t).1 hx
    exact .inr ⟨by simpa using hne.symm, by simp, h.recorded x t hx⟩
  · obtain ⟨hne, -, hs⟩ := hs.resolve_left (by simp)
    exact (hget x t).2 ⟨fun he => hne (he ▸ rfl), h.held x t hs hlt⟩

include hle in
/-- An observation is logged with all that it evicts. -/
lemma Tracked.observe (hrec : now ≤ recorded) {id} :
    Tracked config recorded (c.observeAt now id recorded).1 (c.logged now id recorded log) := by
  have he := (h.expire hle).mono hrec
  cases hc : c.contains now id with
  | true =>
    -- A duplicate leaves what the expiry left: it evicts nothing and records nothing.
    have hnil : (c.expire now).order.filter (· ∉ (c.expire now).entries) = [] := by
      simp [filter_eq_nil_iff, he.wf.ordered.mem_order]
    simp only [logged, observe_duplicate h.wf hc, hnil, map_nil, nil_append]
    exact { he with
      recorded := fun x t hx => .inr ⟨by simp, by simp, he.recorded x t hx⟩
      held := fun x t hs => he.held x t (by simpa [Stands] using hs) }
  | false =>
    -- The new id goes in with its time and the evicted ones go out, in the map as in the log.
    have hcap : c.config.capacity = max config.capacity 1 := congrArg (·.capacity) h.config_eq
    obtain ⟨hwf, hdrop, hget⟩ := observe_fresh h.wf (hle.trans hrec) hc
    obtain ⟨hout, hsize, hcount⟩ := observe_bounded h.wf hc (by omega) recorded
    have hnot := not_mem_expire h.wf hc
    simp only [logged, ← hdrop, hout]
    refine ⟨(observe_config c now id recorded).trans h.config_eq, hwf, hcap ▸ hsize, ?_,
      fun x t hx => ?_, fun x t hs hlt => ?_⟩
    · rw [hcount, h.counted]
      simp [Event.isEvicted, Function.comp_def]
      omega
    · rw [hget] at hx
      split_ifs at hx with hid hx'
      · rw [hid, ← Option.some.inj hx]
        exact .inl rfl
      · exact .inr ⟨by simp, by simp, (stands_evicted _).2 ⟨hx', he.recorded x t hx⟩⟩
    · rw [hget]
      rcases hs with hs | ⟨-, -, hs⟩
      · cases hs
        exact if_pos rfl
      · obtain ⟨hx, hs⟩ := (stands_evicted _).1 hs
        have hheld := he.held x t hs hlt
        rw [if_neg, if_neg hx, hheld]
        rintro rfl
        exact hnot (mem_of_get hheld)

end

/-- The run lemma: every reachable cache agrees with its log. -/
lemma Reach.tracked (h : Reach config clock c log) : Tracked config clock c log := by
  induction h with
  | new clock =>
    exact ⟨rfl, ⟨⟨nodup_nil, by simp [withConfig], .nil⟩, by simp [withConfig]⟩, Nat.zero_le _, rfl,
      by simp [withConfig], fun _ _ => False.elim⟩
  | observe id _ hle hrec ih => exact ih.observe hle hrec
  | forget id _ hle ih => exact (ih.forget id).mono hle
  | expire _ hle ih => exact ih.expire hle
  | contains _ hle ih => exact ih.mono hle

/-- Besides what `Tracked` lists: the expiry removes exactly the ids recorded at
least the retention ago, and an observation is fresh unless a recording that
was neither forgotten nor evicted is younger than that. -/
theorem reach_structure (h : Reach config clock c log) (hle : clock ≤ now) :
    Tracked config clock c log ∧
      (∀ x t, get (c.expire now).entries x = some t ↔
        get c.entries x = some t ∧ now - t < config.retention) ∧
      ∀ id recorded, (c.observeAt now id recorded).2.1 = .fresh ↔
        ∀ t, Stands id t .fresh log → config.retention ≤ now - t := by
  have ht := h.tracked
  refine ⟨ht, ht.expired now, fun id recorded => ?_⟩
  have hout : (c.observeAt now id recorded).2.1 = .fresh ↔ id ∉ (c.expire now).entries := by
    simp only [observeAt]
    split_ifs with hs <;> simp [hs]
  have hmem : id ∈ (c.expire now).entries ↔
      ∃ t, Stands id t .fresh log ∧ now - t < config.retention := by
    rw [mem_iff_exists_get]
    refine exists_congr fun t => (ht.expired now id t).trans (and_congr_left fun hlt => ?_)
    exact ⟨ht.recorded id t, fun hs => ht.held id t hs (by omega)⟩
  rw [hout, hmem]
  simp

def roomForTwo : RelaySeenConfig := { RelaySeenConfig.default with capacity := 2 }

/-- `n` is forgotten, and `m` has to give way. -/
def crowded : RelaySeenCache :=
  let c := ((withConfig roomForTwo).observeAt 0 "m" 0).1
  let c := (c.observeAt 1 "n" 1).1.forget "n"
  ((c.observeAt 3 "o" 3).1.observeAt 4 "p" 4).1

theorem reach_structure_crowded : crowded.capacityEvictions = 1 ∧
    (crowded.observe 600000 "m").2.1 = .fresh ∧ (crowded.observe 600000 "n").2.1 = .fresh ∧
      (crowded.observe 600000 "o").2.1 ≠ .fresh := by
  have hreach : Reach roomForTwo 4 crowded [.observed "p" 4 .fresh, .evicted "m",
      .observed "o" 3 .fresh, .forgotten "n", .observed "n" 1 .fresh, .observed "m" 0 .fresh] :=
    .observe "p" (.observe "o" (.forget "n" (.observe "n" (.observe "m" (.new 0) le_rfl le_rfl)
      (Nat.zero_le 1) le_rfl) (Nat.le_succ 1)) (Nat.le_succ 2) le_rfl) (Nat.le_succ 3) le_rfl
  obtain ⟨-, -, hfresh⟩ := reach_structure hreach (show 4 ≤ 600000 by decide)
  refine ⟨by decide, (hfresh "m" _).2 fun t ht => ?_, (hfresh "n" _).2 fun t ht => ?_, fun h => ?_⟩
  · simp [Stands] at ht
  · simp [Stands] at ht
  · exact absurd ((hfresh "o" _).1 h 3 (by simp [Stands])) (by decide)

/-- A repeat does not renew the recording: an id seen again just before the
retention ends is fresh just after it. -/
theorem repeat_not_renewed : ¬ ∀ clock c log now id, Reach .default clock c log → clock ≤ now →
    (c.observe now id).2.1 = .fresh →
      ∀ t outcome, Stands id t outcome log → RelaySeenConfig.default.retention ≤ now - t := by
  intro h
  have hreach : Reach .default 599999 _ _ :=
    .observe "m" (.observe "m" (.new 0) le_rfl le_rfl) (Nat.zero_le _) le_rfl
  exact absurd (h _ _ _ 600000 "m" hreach (by decide) (by decide) 599999 .duplicate
    (.inl (by decide))) (by decide)

end OfflineProtocol.RelaySeenCache
