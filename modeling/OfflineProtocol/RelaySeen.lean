import OfflineProtocol.Message

/-! The suppression cache of forwarded ids. Times are readings of one
monotonic clock in milliseconds, passed in where the source reads it. -/
namespace OfflineProtocol
open KeyedTable List Option

structure RelaySeenConfig where
  capacity : ℕ
  retention : ℕ
deriving DecidableEq

def RelaySeenConfig.default : RelaySeenConfig where
  capacity := 8192
  retention := 600000

inductive SeenOutcome
  | fresh
  | duplicate
deriving DecidableEq

structure RelaySeenCache where
  config : RelaySeenConfig
  entries : Table MessageId ℕ
  order : List MessageId
  capacityEvictions : ℕ

namespace RelaySeenCache
variable (c : RelaySeenCache) (now : ℕ) (id : MessageId)

def withConfig (config : RelaySeenConfig) : RelaySeenCache where
  config := { config with capacity := max config.capacity 1 }
  entries := ∅
  order := []
  capacityEvictions := 0

def expireLoop (retention : ℕ) (now : ℕ) :
    List MessageId → Table MessageId ℕ → List MessageId × Table MessageId ℕ
  | [], m => ([], m)
  | id :: rest, m =>
    match get m id with
    | some t =>
      if retention ≤ now - t then expireLoop retention now rest (m.erase id) else (id :: rest, m)
    | none => expireLoop retention now rest (m.erase id)

def expire : RelaySeenCache :=
  let r := expireLoop c.config.retention now c.order c.entries
  { c with order := r.1, entries := r.2 }

def contains : Bool :=
  match get c.entries id with
  | some t => decide (now - t < c.config.retention)
  | none => false

def forget : RelaySeenCache :=
  if id ∈ c.entries then
    { c with entries := c.entries.erase id, order := c.order.filter (· ≠ id) }
  else c

def makeRoomLoop (capacity : ℕ) :
    List MessageId → Table MessageId ℕ → List MessageId × Table MessageId ℕ × List MessageId
  | [], m => ([], m, [])
  | id :: rest, m =>
    if capacity ≤ m.entries.length then
      let r := makeRoomLoop capacity rest (m.erase id)
      (r.1, r.2.1, id :: r.2.2)
    else (id :: rest, m, [])

/-- The source reads the clock for the expiry and again for the recording. -/
def observeAt (recorded : ℕ) : RelaySeenCache × SeenOutcome × List MessageId :=
  let c := c.expire now
  if id ∈ c.entries then (c, .duplicate, [])
  else
    let r := makeRoomLoop c.config.capacity c.order c.entries
    ({ c with
        entries := r.2.1.insert id recorded
        order := r.1 ++ [id]
        capacityEvictions := min (c.capacityEvictions + r.2.2.length) (2 ^ 64 - 1) }, .fresh, r.2.2)

/-- Both readings in one millisecond. -/
abbrev observe : RelaySeenCache × SeenOutcome × List MessageId := c.observeAt now id now

/-- The order queue lists the ids of the map once each, oldest recording
first. -/
structure Ordered (order : List MessageId) (m : Table MessageId ℕ) : Prop where
  nodup : order.Nodup
  mem_order : ∀ x, x ∈ order ↔ x ∈ m
  sorted : order.Pairwise fun x y => ∀ tx ty, get m x = some tx → get m y = some ty → tx ≤ ty

/-- A cache every recording of which was made at or before `clock`. -/
structure WellFormed (c : RelaySeenCache) (clock : ℕ) : Prop where
  ordered : Ordered c.order c.entries
  recorded_le : ∀ x t, get c.entries x = some t → t ≤ clock

variable {order : List MessageId} {m : Table MessageId ℕ} {c : RelaySeenCache}
  {clock now recorded : ℕ} {id : MessageId}

lemma Ordered.forget (h : Ordered order m) (id) :
    Ordered (order.filter (· ≠ id)) (m.erase id) := by
  refine ⟨h.nodup.filter _, fun x => ?_, ?_⟩
  · simp only [mem_filter, decide_eq_true_eq, AList.mem_erase, h.mem_order, and_comm]
  refine (h.sorted.sublist filter_sublist).imp ?_
  intro x y hxy tx ty hx hy
  exact hxy tx ty (of_get_erase hx).2 (of_get_erase hy).2

lemma Ordered.tail (h : Ordered (id :: order) m) :
    Ordered order (m.erase id) := by
  have hne : ∀ x ∈ order, x ≠ id := by
    intro x hx he
    exact (nodup_cons.1 h.nodup).1 (he ▸ hx)
  have hf : (id :: order).filter (· ≠ id) = order := by
    rw [filter_cons_of_neg (by simp), filter_eq_self]
    intro x hx
    simpa using hne x hx
  simpa only [hf] using h.forget id

lemma Ordered.push (h : Ordered order m) (hid : id ∉ m)
    (hle : ∀ x t, get m x = some t → t ≤ now) : Ordered (order ++ [id]) (m.insert id now) := by
  have hne : ∀ x ∈ order, x ≠ id := fun x hx he => hid ((h.mem_order id).1 (he ▸ hx))
  refine ⟨?_, fun x => ?_, ?_⟩
  · rw [nodup_append]
    refine ⟨h.nodup, nodup_singleton id, ?_⟩
    intro x hx y hy
    rw [mem_singleton.1 hy]
    exact hne x hx
  · simp only [mem_append, mem_singleton, AList.mem_insert, h.mem_order, or_comm]
  rw [pairwise_append]
  refine ⟨h.sorted.imp_of_mem ?_, pairwise_singleton _ _, ?_⟩
  · intro x y hx hy hxy tx ty htx hty
    rw [get_insert_ne (hne x hx)] at htx
    rw [get_insert_ne (hne y hy)] at hty
    exact hxy tx ty htx hty
  · intro x hx y hy tx ty htx hty
    rw [mem_singleton.1 hy, get_insert_self] at hty
    rw [get_insert_ne (hne x hx)] at htx
    rw [← some.inj hty]
    exact hle x tx htx

/-- The expiry loop stops at the first live recording. In an ordered cache the
rest is younger, so exactly the aged recordings leave. -/
lemma expireLoop_spec (h : Ordered order m) :
    Ordered (expireLoop retention now order m).1 (expireLoop retention now order m).2 ∧
      ∀ x, get (expireLoop retention now order m).2 x =
        (get m x).filter fun t => decide (now - t < retention) := by
  induction order generalizing m with
  | nil =>
    refine ⟨h, fun x => ?_⟩
    have hx : get m x = none := by
      rw [get_eq_none_iff, ← h.mem_order]
      exact not_mem_nil
    simp only [expireLoop, hx, filter_none]
  | cons id rest ih =>
    obtain ⟨t, ht⟩ := exists_get_of_mem ((h.mem_order id).1 (.head _))
    simp only [expireLoop, ht]
    split_ifs with hage
    · obtain ⟨ho, hl⟩ := ih h.tail
      refine ⟨ho, fun x => ?_⟩
      rw [hl, get_erase]
      split_ifs with hx
      · have hlt : ¬ now - t < retention := by omega
        simp [hx, ht, filter_some, hlt]
      · rfl
    · refine ⟨h, fun x => ?_⟩
      cases hx : get m x with
      | none => rfl
      | some tx =>
        -- Every recording in the list is at least as young as the front one.
        have hle : t ≤ tx := by
          have hmem := (h.mem_order x).2 (mem_of_get hx)
          rcases mem_cons.1 hmem with rfl | hmem
          · rw [ht] at hx
            exact (some.inj hx).le
          · exact (pairwise_cons.1 h.sorted).1 x hmem t tx ht hx
        have hlt : now - tx < retention := by omega
        simp [filter_some, hlt]

lemma get_expire (h : c.WellFormed clock) (x) : get (c.expire now).entries x =
      (get c.entries x).filter fun t => decide (now - t < c.config.retention) :=
  (expireLoop_spec h.ordered).2 x

lemma WellFormed.expire (h : c.WellFormed clock) (now) : (c.expire now).WellFormed clock := by
  refine ⟨(expireLoop_spec h.ordered).1, fun x t hx => ?_⟩
  rw [get_expire h, filter_eq_some_iff] at hx
  exact h.recorded_le x t hx.1

lemma WellFormed.mono (h : c.WellFormed clock) (hle : clock ≤ now) : c.WellFormed now :=
  ⟨h.ordered, fun x t hx => (h.recorded_le x t hx).trans hle⟩

lemma get_forget (c : RelaySeenCache) (id x) :
    get (c.forget id).entries x = if x = id then none else get c.entries x := by
  unfold RelaySeenCache.forget
  split_ifs with hm hx hx
  · exact get_erase.trans (if_pos hx)
  · exact get_erase.trans (if_neg hx)
  · rw [hx]
    exact get_eq_none_iff.2 hm
  · rfl

@[simp] lemma forget_config {c : RelaySeenCache} {id} : (c.forget id).config = c.config := by
  unfold RelaySeenCache.forget
  split_ifs <;> rfl

lemma WellFormed.forget (h : c.WellFormed clock) (id) : (c.forget id).WellFormed clock := by
  refine ⟨?_, fun x t hx => ?_⟩
  · unfold RelaySeenCache.forget
    split_ifs
    · exact h.ordered.forget id
    · exact h.ordered
  · rw [get_forget] at hx
    split_ifs at hx
    exact h.recorded_le x t hx

lemma contains_iff (c : RelaySeenCache) (now id) :
    c.contains now id = true ↔ ∃ t, get c.entries id = some t ∧ now - t < c.config.retention := by
  unfold contains
  cases get c.entries id with
  | none => simp
  | some t => simp

lemma mem_expire_iff (h : c.WellFormed clock) {id} :
    id ∈ (c.expire now).entries ↔ c.contains now id = true := by
  simp only [mem_iff_exists_get, get_expire h, filter_eq_some_iff, decide_eq_true_eq, contains_iff]

lemma not_mem_expire (h : c.WellFormed clock) (hid : c.contains now id = false) :
    id ∉ (c.expire now).entries := by
  rw [mem_expire_iff h, hid]
  exact Bool.false_ne_true

lemma makeRoomLoop_spec (capacity) (h : Ordered order m) :
    let r := makeRoomLoop capacity order m
    Ordered r.1 r.2.1 ∧ (∀ x, get r.2.1 x = if x ∈ r.2.2 then none else get m x) ∧
      order = r.2.2 ++ r.1 := by
  induction order generalizing m with
  | nil => exact ⟨h, fun x => by simp [makeRoomLoop], by simp [makeRoomLoop]⟩
  | cons id rest ih =>
    unfold makeRoomLoop
    split_ifs with hfull
    · obtain ⟨ho, hl, hm⟩ := ih h.tail
      refine ⟨ho, fun x => ?_, congrArg (id :: ·) hm⟩
      rw [hl, get_erase]
      by_cases hx : x = id <;> simp [hx]
    · exact ⟨h, fun x => by simp, by simp⟩

lemma makeRoomLoop_length (hc : 0 < capacity) (h : Ordered order m) :
    (makeRoomLoop capacity order m).2.1.entries.length < capacity := by
  induction order generalizing m with
  | nil =>
    have hle : m.entries.length ≤ (∅ : Table MessageId ℕ).entries.length :=
      length_le_of_mem fun x hx => absurd ((h.mem_order x).2 hx) not_mem_nil
    exact hle.trans_lt hc
  | cons id rest ih =>
    unfold makeRoomLoop
    split_ifs with hfull
    · exact ih h.tail
    · exact not_le.1 hfull

lemma observe_duplicate (h : c.WellFormed clock) (hid : c.contains now id = true) (recorded) :
    c.observeAt now id recorded = (c.expire now, .duplicate, []) := by
  simp only [observeAt, (mem_expire_iff h).2 hid, if_true]

lemma observe_config (c : RelaySeenCache) (now id recorded) :
    (c.observeAt now id recorded).1.config = c.config := by
  simp only [observeAt]
  split_ifs <;> rfl

/-- Recording an id that is not suppressed: it is recorded, the aged
recordings and those dropped for capacity are gone, the others stay. -/
lemma observe_fresh (h : c.WellFormed clock) (hle : clock ≤ recorded)
    (hid : c.contains now id = false) :
    let r := c.observeAt now id recorded
    r.1.WellFormed recorded ∧ r.2.2 = (c.expire now).order.filter (· ∉ r.1.entries) ∧
      ∀ x, get r.1.entries x =
        if x = id then some recorded else if x ∈ r.2.2 then none else get (c.expire now).entries x := by
  have hnot := not_mem_expire h hid
  have hwf := h.expire now
  obtain ⟨ho, hl, hm⟩ := makeRoomLoop_spec (c.expire now).config.capacity hwf.ordered
  simp only [observeAt, hnot, if_false]
  set r := makeRoomLoop (c.expire now).config.capacity (c.expire now).order (c.expire now).entries
  have hle' : ∀ x t, get r.2.1 x = some t → t ≤ recorded := by
    intro x t hx
    rw [hl] at hx
    split_ifs at hx
    exact (hwf.recorded_le x t hx).trans hle
  have hid' : id ∉ r.2.1 := by
    rw [← get_eq_none_iff, hl, get_eq_none_iff.2 hnot, ite_self]
  refine ⟨⟨ho.push hid' hle', fun x t hx => ?_⟩, ?_, fun x => ?_⟩
  · rcases of_get_insert hx with ⟨-, rfl⟩ | ⟨-, hx⟩
    · exact le_rfl
    · exact hle' x t hx
  · rw [hm, filter_append, filter_eq_self.2, filter_eq_nil_iff.2, append_nil]
    · intro x hx
      simpa using fun _ => (ho.mem_order x).1 hx
    · intro x hx
      have hgone : x ∉ r.2.1 := by rw [← get_eq_none_iff, hl, if_pos hx]
      have hne : x ≠ id := by
        rintro rfl
        exact hnot ((hwf.ordered.mem_order x).1 (hm ▸ mem_append_left _ hx))
      simpa using ⟨hne, hgone⟩
  · rw [get_insert, hl]

lemma observe_bounded (h : c.WellFormed clock) (hid : c.contains now id = false)
    (hcap : 0 < c.config.capacity) (recorded) :
    let r := c.observeAt now id recorded
    r.2.1 = .fresh ∧ r.1.entries.entries.length ≤ c.config.capacity ∧
      r.1.capacityEvictions = min (c.capacityEvictions + r.2.2.length) (2 ^ 64 - 1) := by
  simp only [observeAt, not_mem_expire h hid, if_false]
  exact ⟨trivial, (length_insert_le _).trans (makeRoomLoop_length hcap (h.expire now).ordered), rfl⟩

end RelaySeenCache

end OfflineProtocol
