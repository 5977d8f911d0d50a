import OfflineProtocol.CustodyAccounting

/-! How the custody store makes room: the two budget loops, whom they evict and
when they succeed, and what the acceptance table and the configuration check
guarantee before they run. -/
namespace OfflineProtocol
open KeyedTable List

namespace CustodyStore
variable {s : CustodyStore}

section
variable {fits : CustodyStore → Bool} {victimOf : CustodyStore → Option MessageId}
  {s' : CustodyStore} {evicted : List MessageId}

inductive Evicts (fits : CustodyStore → Bool) (victimOf : CustodyStore → Option MessageId) :
    CustodyStore → List MessageId → CustodyStore → Prop
  | done (s : CustodyStore) : Evicts fits victimOf s [] s
  | round {s s' : CustodyStore} {victim : MessageId} {rest : List MessageId}
      (full : fits s = false) (pick : victimOf s = some victim)
      (next : Evicts fits victimOf (s.removeInner victim).1 rest s') :
      Evicts fits victimOf s (victim :: rest) s'

section
variable (h : Evicts fits victimOf s evicted s')
include h

lemma Evicts.eq_removeAll : s' = s.removeAll evicted := by
  induction h with
  | done s => rfl
  | round full pick next ih => exact ih

lemma Evicts.then_removeAll
    (h' : Evicts fits' victimOf' s' more last) : last = s.removeAll (evicted ++ more) := by
  rw [h'.eq_removeAll, h.eq_removeAll, removeAll_append]

lemma Evicts.preserves {P : CustodyStore → Prop}
    (hstep : ∀ s id, P s → P (s.removeInner id).1) (hs : P s) : P s' := by
  rw [h.eq_removeAll]
  exact removeAll_preserves hstep hs

lemma Evicts.config_eq : s'.config = s.config :=
  h.preserves (P := fun t => t.config = s.config) (fun t id ht => by simpa using ht) rfl

lemma Evicts.balanced (hb : s.Balanced) : s'.Balanced :=
  h.preserves (fun _ _ hs => hs.removeInner) hb

lemma Evicts.within (hb : s.Balanced) (hw : s.WithinBudgets) : s'.WithinBudgets := by
  refine (h.preserves (P := fun s => s.Balanced ∧ s.WithinBudgets) ?_ ⟨hb, hw⟩).2
  exact fun s id hs => ⟨hs.1.removeInner, hs.2.removeInner hs.1 id⟩

lemma Evicts.get_eq (x) : get s'.entries x = if x ∈ evicted then none else get s.entries x := by
  rw [h.eq_removeAll, get_removeAll]

lemma Evicts.held (hpick : ∀ s v, victimOf s = some v → v ∈ s.entries) :
    evicted.Nodup ∧ ∀ v ∈ evicted, v ∈ s.entries := by
  induction h with
  | done s => simp
  | @round s s' victim rest full pick next ih =>
    obtain ⟨hnd, hmem⟩ := ih
    have hrest : ∀ v ∈ rest, v ≠ victim ∧ v ∈ s.entries := by
      intro v hv
      have hin := hmem v hv
      rw [mem_iff_exists_get] at hin ⊢
      obtain ⟨f, hf⟩ := hin
      rw [get_removeInner] at hf
      split_ifs at hf with he
      exact ⟨he, f, hf⟩
    exact ⟨nodup_cons.2 ⟨fun hv => (hrest victim hv).1 rfl, hnd⟩,
      forall_mem_cons.2 ⟨hpick s _ pick, fun v hv => (hrest v hv).2⟩⟩

end

lemma evictLoop_evicts (fits) (victimOf) (fuel s) :
    Evicts fits victimOf s (evictLoop fits victimOf fuel s).2.1
      (evictLoop fits victimOf fuel s).1 := by
  induction fuel generalizing s with
  | zero =>
    unfold evictLoop
    split_ifs
    · exact .done s
    split
    · exact .done s
    · cases victimOf s <;> exact .done s
  | succ fuel ih =>
    unfold evictLoop
    split_ifs with hfit
    · exact .done s
    split
    · exact .done s
    cases hv : victimOf s with
    | none => exact .done s
    | some v => exact .round (Bool.eq_false_iff.2 hfit) hv (ih _)

lemma evictLoop_fits (fits victimOf) (h : (evictLoop fits victimOf fuel s).2.2 = true) :
    fits (evictLoop fits victimOf fuel s).1 = true := by
  induction fuel generalizing s with
  | zero =>
    unfold evictLoop at h ⊢
    split_ifs at h ⊢ with hfit
    · exact hfit
    split at h
    · cases h
    · cases hv : victimOf s <;> simp [hv] at h
  | succ fuel ih =>
    unfold evictLoop at h ⊢
    split_ifs at h ⊢ with hfit
    · exact hfit
    split at h
    · cases h
    cases hv : victimOf s with
    | none => simp [hv] at h
    | some v =>
      simp only [hv] at h ⊢
      exact ih h

lemma evictLoop_dropNewest (fuel) (h : s.config.overflowPolicy = .dropNewest) :
    (evictLoop fits victimOf fuel s).1 = s := by
  unfold evictLoop
  split_ifs
  · rfl
  · rw [h]

/-- With the drop-oldest policy the loop makes room, when a store with no
victim left fits the frame: every round takes one id out of the order. -/
lemma evictLoop_succeeds (hb : s.Balanced)
    (hpol : s.config.overflowPolicy = .dropOldest) (hfuel : s.order.length ≤ fuel)
    (hpick : ∀ s v, victimOf s = some v → v ∈ s.entries)
    (hempty : ∀ t, t.Balanced → t.config = s.config → victimOf t = none → fits t = true) :
    (evictLoop fits victimOf fuel s).2.2 = true := by
  induction fuel generalizing s with
  | zero =>
    have hnone : victimOf s = none := by
      cases hv : victimOf s with
      | none => rfl
      | some v =>
        have hmem := (hb.mem_order v).2 (hpick s v hv)
        rw [length_eq_zero_iff.1 (Nat.le_zero.1 hfuel)] at hmem
        cases hmem
    unfold evictLoop
    rw [if_pos (hempty s hb rfl hnone)]
  | succ fuel ih =>
    unfold evictLoop
    split_ifs with hfit
    · rfl
    rw [hpol]
    cases hv : victimOf s with
    | none => exact absurd (hempty s hb rfl hv) hfit
    | some v =>
      obtain ⟨held, hheld⟩ := exists_get_of_mem (hpick s v hv)
      have hlt : (s.removeInner v).1.order.length < s.order.length := by
        rw [removeInner_order hheld]
        refine length_filter_lt_length_iff_exists.2 ⟨v, ?_, by simp⟩
        exact (hb.mem_order v).2 (mem_of_get hheld)
      exact ih hb.removeInner (by rwa [removeInner_config]) (by omega)
        (fun t ht hc => hempty t ht (by rw [hc, removeInner_config]))

end

lemma mem_of_oldest {id : MessageId} (h : s.oldest = some id) : id ∈ s.entries := by
  simpa using find?_some h

lemma mem_of_oldestOf {id : MessageId} (h : s.oldestOf d = some id) :
    ∃ held, get s.entries id = some held ∧ held.depositor = d := by
  have hp := find?_some h
  cases hg : get s.entries id with
  | none => simp [hg] at hp
  | some held => exact ⟨held, rfl, by simpa [hg] using hp⟩

lemma Balanced.usageOf_eq_zero (hb : s.Balanced) (h : s.oldestOf d = none) :
    s.usageOf d = .zero := by
  have hcount : s.countOf d = 0 := by
    refine tally_eq_zero _ _ fun k v hk => ?_
    have hmem := (hb.mem_order k).2 (mem_of_get hk)
    have hp := find?_eq_none.1 h k hmem
    simp only [hk, decide_eq_true_eq] at hp
    rw [if_neg hp]
  rw [hb.usageOf_eq, hcount, bytesOf_eq_zero hcount]
  rfl

lemma Balanced.total_eq_zero (hb : s.Balanced) (h : s.oldest = none) : s.total = .zero := by
  have hnone : ∀ k v, get s.entries k = some v → False := by
    intro k v hk
    have hmem := (hb.mem_order k).2 (mem_of_get hk)
    have hp := find?_eq_none.1 h k hmem
    exact hp (decide_eq_true (mem_of_get hk))
  rw [hb.total, ← tally_one, tally_eq_zero _ _ fun k v hk => (hnone k v hk).elim,
    tally_eq_zero _ _ fun k v hk => (hnone k v hk).elim]
  rfl

lemma Evicts.oldest_first (h : Evicts fits oldest s evicted s') (hb : s.Balanced) :
    s.order = evicted ++ s'.order := by
  induction h with
  | done s => rfl
  | @round s s' victim rest full pick next ih =>
    have hhead : s.order = victim :: s.order.tail := by
      cases ho : s.order with
      | nil => simp [oldest, ho] at pick
      | cons x xs =>
        have hx : x ∈ s.entries := (hb.mem_order x).1 (ho ▸ (.head _))
        simp only [oldest, ho, find?_cons, decide_eq_true hx] at pick
        rw [Option.some.inj pick]
        rfl
    obtain ⟨held, hheld⟩ := exists_get_of_mem (mem_of_oldest pick)
    have hnd := hb.order_nodup
    rw [hhead, nodup_cons] at hnd
    have hfilt : s.order.filter (· ≠ victim) = s.order.tail := by
      rw [hhead, filter_cons_of_neg (by simp), tail_cons, filter_eq_self]
      intro x hx
      simpa using fun he : x = victim => hnd.1 (he ▸ hx)
    have hrest := ih hb.removeInner
    rw [removeInner_order hheld, hfilt] at hrest
    rw [hhead, hrest]
    rfl

lemma Evicts.own_frames (h : Evicts fits (fun s => s.oldestOf d) s evicted s') :
    ∀ id ∈ evicted, ∃ held, get s.entries id = some held ∧ held.depositor = d := by
  induction h with
  | done s => simp
  | @round s s' victim rest full pick next ih =>
    intro id hid
    rcases mem_cons.1 hid with rfl | hid
    · exact mem_of_oldestOf pick
    obtain ⟨held, hg, hd⟩ := ih id hid
    rw [get_removeInner] at hg
    split_ifs at hg
    exact ⟨held, hg, hd⟩

lemma check_ok (h : s.check c = .ok admitted) :
    s.config.enabled = true ∧ c.message.id ∉ s.entries ∧ admitted.depositor = c.message.sender ∧
      (admitted.tier = .stranger →
        0 < s.config.strangerMaxEntries ∧ 0 < s.config.strangerMaxBytes) := by
  cases hr : c.request with
  | none => simp [check, hr] at h
  | some token =>
    cases hp : c.arrivalPeer with
    | none =>
      simp only [check, hr, hp] at h
      split_ifs at h
    | some peer =>
      simp only [check, hr, hp, ne_eq, ite_not] at h
      split_ifs at h with h1 h2 h3 h4 h5 h6
      all_goals obtain rfl := Except.ok.inj h
      · exact ⟨by simpa using h1, h5, h4.symm, nofun⟩
      rename_i hquota _
      refine ⟨by simpa using h1, h5, h4.symm, fun _ => ?_⟩
      simp only [true_and, not_or] at hquota
      omega

lemma validateCustody_enabled {config : CustodyConfig}
    (h : validateCustody config outboxLifetimeMs = .ok ()) (he : config.enabled = true) :
    0 < config.maxEntriesPerDepositor ∧ config.maxEntriesPerDepositor ≤ config.maxEntries ∧
      config.maxBytesPerDepositor ≤ config.maxBytes ∧
      config.strangerMaxEntries ≤ config.maxEntries ∧
      config.strangerMaxBytes ≤ config.maxBytes := by
  unfold validateCustody at h
  simp only [he, Bool.not_true, Bool.false_eq_true, if_false] at h
  split_ifs at h
  omega

end CustodyStore

end OfflineProtocol
