import OfflineProtocol.EventTrace
import OfflineProtocol.SubscriptionProvider

/-! The provider's subscription table as a machine of five events: a subscription
opened, revised, expired or ended for good, and the topics replaced. -/
namespace OfflineProtocol.Provider
open KeyedTable EventTrace List
variable {retired : List Retired}

lemma forgetOldest_sublist (retired bound which) :
    (forgetOldest retired bound which).Sublist retired := by
  unfold forgetOldest
  split_ifs
  · exact eraseP_sublist
  · exact .refl retired

lemma forgetHeaviest_sublist (retired order) :
    (forgetHeaviest retired order).Sublist retired := by
  unfold forgetHeaviest
  split_ifs
  · split
    · exact eraseP_sublist
    · exact .refl retired
  · exact .refl retired

lemma countP_eraseP_lt (h : 0 < retired.countP which) :
    (retired.eraseP which).countP which + 1 = retired.countP which ∧
      (retired.eraseP which).length + 1 = retired.length := by
  obtain ⟨a, ha, hp⟩ := countP_pos_iff.1 h
  obtain ⟨b, l1, l2, -, hb, hl, he⟩ := exists_of_eraseP ha hp
  rw [he, hl]
  simp only [countP_append, countP_cons, hb, if_true, length_append, length_cons]
  omega

lemma countP_eraseP_of_disjoint (h : ∀ r, which r → ¬other r) :
    (retired.eraseP which).countP other = retired.countP other := by
  rcases exists_or_eq_self_of_eraseP which retired with he | ⟨b, l1, l2, -, hb, hl, he⟩
  · rw [he]
  rw [he, hl]
  simp only [countP_append, countP_cons, h b hb, Bool.false_eq_true, if_false, add_zero]

lemma countP_forgetOldest_lt (which)
    (hpos : 0 < bound) (h : retired.countP which ≤ bound) :
    (forgetOldest retired bound which).countP which < bound := by
  unfold forgetOldest
  split_ifs with hb
  · have hsome : 0 < retired.countP which := by omega
    have hdrop := (countP_eraseP_lt hsome).1
    omega
  · omega

lemma forgetOldest_eq_or_shorter (retired bound which) (hpos : 0 < bound) :
    forgetOldest retired bound which = retired ∨
      (forgetOldest retired bound which).length < retired.length := by
  unfold forgetOldest
  split_ifs with hb
  · have hsome : 0 < retired.countP which := by omega
    have hdrop := (countP_eraseP_lt hsome).2
    right
    omega
  · exact .inl rfl

lemma heaviest_loop (w : String → ℕ) (met : List String) (best) :
    let f := fun (best : Option String) (s : String) =>
      match best with
      | none => some s
      | some b => if w b ≤ w s then some s else some b
    (∀ b ∈ best.toList ++ met, ∃ c, met.foldl f best = some c ∧ w b ≤ w c) ∧
      ∀ c, met.foldl f best = some c → c ∈ best.toList ++ met := by
  intro f
  induction met generalizing best with
  | nil =>
    cases best with
    | none => simp
    | some b => simp
  | cons s met ih =>
    obtain ⟨hmax, hmem⟩ := ih (f best s)
    -- The turn for `s` keeps a best that is at least both the old best and `s`.
    have hturn : ∃ c, f best s = some c ∧ w s ≤ w c ∧ (∀ b ∈ best, w b ≤ w c) ∧
        (c = s ∨ c ∈ best) := by
      cases best with
      | none => exact ⟨s, rfl, le_rfl, by simp, .inl rfl⟩
      | some b =>
        by_cases hle : w b ≤ w s
        · exact ⟨s, if_pos hle, le_rfl, by simpa using hle, .inl rfl⟩
        · exact ⟨b, if_neg hle, by omega, by simp, .inr rfl⟩
    obtain ⟨c, hc, hs, hb, hfrom⟩ := hturn
    obtain ⟨d, hd, hcd⟩ := hmax c (by simp [hc])
    constructor
    · intro b hbm
      rcases mem_append.1 hbm with hb' | hb'
      · exact ⟨d, hd, (hb b (by simpa using hb')).trans hcd⟩
      rcases mem_cons.1 hb' with rfl | hb''
      · exact ⟨d, hd, hs.trans hcd⟩
      · exact hmax b (mem_append_right _ hb'')
    · intro e he
      rcases mem_append.1 (hmem e he) with he' | he'
      · have hec : e = c := by simpa [hc, eq_comm] using he'
        rcases hfrom with rfl | hbest
        · simp [hec]
        rw [hec]
        exact mem_append_left _ (by simpa using hbest)
      · simp [he']

lemma heaviest_spec (h : retired ≠ []) (order : List String) :
    ∃ b, heaviest retired order = some b ∧ 0 < remembered retired b ∧
      ∀ s, remembered retired s ≤ remembered retired b := by
  have hmet (s : String) : (s ∈ order.dedup.filter (· ∈ (retired.map Retired.subscriber).dedup) ++
      (retired.map Retired.subscriber).dedup.filter (· ∉ order)) ↔
      0 < remembered retired s := by
    simp only [mem_append, mem_filter, mem_dedup, decide_eq_true_eq, remembered,
      countP_pos_iff, mem_map]
    by_cases hs : s ∈ order <;> simp [hs]
  obtain ⟨hmax, hmem⟩ := heaviest_loop (remembered retired)
    (order.dedup.filter (· ∈ (retired.map Retired.subscriber).dedup) ++
      (retired.map Retired.subscriber).dedup.filter (· ∉ order)) none
  obtain ⟨r, hr⟩ := exists_mem_of_ne_nil retired h
  have hr' : 0 < remembered retired r.subscriber :=
    countP_pos_iff.2 ⟨r, hr, by simp⟩
  obtain ⟨b, hb, -⟩ := hmax r.subscriber (mem_append_right _ ((hmet _).2 hr'))
  refine ⟨b, hb, (hmet b).1 (by simpa using hmem b hb), fun s => ?_⟩
  by_cases hs : 0 < remembered retired s
  · obtain ⟨c, hc, hle⟩ := hmax s (mem_append_right _ ((hmet s).2 hs))
    rw [hb] at hc
    cases hc
    exact hle
  · omega

lemma length_forgetHeaviest (order) (h : retired.length ≤ maxRetiredSubIds) :
    (forgetHeaviest retired order).length < maxRetiredSubIds := by
  unfold forgetHeaviest
  split_ifs with hfull
  · have hne : retired ≠ [] := by
      rintro rfl
      cases hfull
    obtain ⟨b, hb, hpos, -⟩ := heaviest_spec hne order
    have hdrop := (countP_eraseP_lt hpos).2
    simp only [hb]
    omega
  · omega

lemma remembered_forgetHeaviest
    (h : remembered (forgetHeaviest retired order) s < remembered retired s) :
    maxRetiredSubIds ≤ retired.length ∧ ∀ t, remembered retired t ≤ remembered retired s := by
  unfold forgetHeaviest at h
  split_ifs at h with hfull
  · have hne : retired ≠ [] := by
      rintro rfl
      cases hfull
    obtain ⟨b, hb, -, hmax⟩ := heaviest_spec hne order
    simp only [hb] at h
    by_cases hsb : s = b
    · exact ⟨hfull, hsb ▸ hmax⟩
    have hkeep : remembered (retired.eraseP fun r => r.subscriber = b) s =
        remembered retired s := by
      apply countP_eraseP_of_disjoint
      intro r hr hr'
      simp only [decide_eq_true_eq] at hr hr'
      exact hsb (hr'.symm.trans hr)
    omega
  · omega

def ofTriple (subscriber serviceId topic : String) (r : Retired) : Bool :=
  r.subscriber = subscriber ∧ r.serviceId = serviceId ∧ r.topic = topic

structure MemoryBounded (retired : List Retired) : Prop where
  perTopic : ∀ subscriber serviceId topic,
    retired.countP (ofTriple subscriber serviceId topic) ≤ maxRetiredPerTopic
  perSubscriber : ∀ subscriber, remembered retired subscriber ≤ maxRetiredPerSubscriber
  inAll : retired.length ≤ maxRetiredSubIds

section
variable {retired : List Retired} {sub : ProviderSub}

lemma mem_retireEntry (h : r ∈ retireEntry retired subId sub order) :
    r ∈ retired ∨ r = ⟨sub.subscriber, sub.serviceId, sub.topic, subId⟩ := by
  rcases mem_append.1 h with h | h
  · left
    exact (forgetOldest_sublist _ _ _).subset ((forgetOldest_sublist _ _ _).subset
      ((forgetHeaviest_sublist _ _).subset h))
  · exact .inr (mem_singleton.1 h)

lemma retireEntry_bounded (h : MemoryBounded retired) :
    MemoryBounded (retireEntry retired subId sub order) := by
  have htriple := countP_forgetOldest_lt (sameTriple sub) (by decide)
    (h.perTopic sub.subscriber sub.serviceId sub.topic)
  have hsub1 := forgetOldest_sublist retired maxRetiredPerTopic (sameTriple sub)
  unfold retireEntry
  generalize forgetOldest retired maxRetiredPerTopic (sameTriple sub) = l1 at htriple hsub1
  have hown := countP_forgetOldest_lt
    (fun r => decide (r.subscriber = sub.subscriber)) (by decide)
    (hsub1.countP_le.trans (h.perSubscriber sub.subscriber))
  have hsub2 := forgetOldest_sublist l1 maxRetiredPerSubscriber
    fun r => decide (r.subscriber = sub.subscriber)
  simp only
  generalize forgetOldest l1 maxRetiredPerSubscriber
    (fun r => decide (r.subscriber = sub.subscriber)) = l2 at hown hsub2
  have hlen := length_forgetHeaviest order ((hsub2.trans hsub1).length_le.trans h.inAll)
  have hsub3 := forgetHeaviest_sublist l2 order
  generalize forgetHeaviest l2 order = l3 at hlen hsub3
  constructor
  · intro subscriber serviceId topic
    rw [countP_append, countP_singleton]
    split_ifs with hnew
    · -- The new entry's own triple was below its bound.
      have hsame : sameTriple sub = ofTriple subscriber serviceId topic := by
        obtain ⟨rfl, rfl, rfl⟩ := of_decide_eq_true hnew
        rfl
      have hle := (hsub3.trans hsub2).countP_le (p := sameTriple sub)
      rw [hsame] at hle htriple
      omega
    · have hle := ((hsub3.trans hsub2).trans hsub1).countP_le
        (p := ofTriple subscriber serviceId topic)
      have hold := h.perTopic subscriber serviceId topic
      omega
  · intro subscriber
    rw [remembered, countP_append, countP_singleton]
    split_ifs with hnew
    · have hsame : sub.subscriber = subscriber := of_decide_eq_true hnew
      have hle := hsub3.countP_le (p := fun r => decide (r.subscriber = sub.subscriber))
      rw [hsame] at hle hown
      omega
    · have hle := ((hsub3.trans hsub2).trans hsub1).countP_le
        (p := fun r => decide (r.subscriber = subscriber))
      have hold := h.perSubscriber subscriber
      rw [remembered] at hold
      omega
  · rw [length_append, length_singleton]
    omega

/-- One subscriber's retirement takes another's entry only when the other has
the most remembered of all. -/
lemma retireEntry_fair (h : MemoryBounded retired) (hother : other ≠ sub.subscriber)
    (hlost : remembered (retireEntry retired subId sub order) other < remembered retired other) :
    ∀ s, remembered retired s ≤ remembered retired other := by
  have hkeep1 : remembered (forgetOldest retired maxRetiredPerTopic (sameTriple sub)) other =
      remembered retired other := by
    unfold forgetOldest
    split_ifs
    · apply countP_eraseP_of_disjoint
      intro r hr hr'
      exact hother ((of_decide_eq_true hr').symm.trans (of_decide_eq_true hr).1)
    · rfl
  have hshort1 := forgetOldest_eq_or_shorter retired maxRetiredPerTopic (sameTriple sub) (by decide)
  unfold retireEntry at hlost
  generalize forgetOldest retired maxRetiredPerTopic (sameTriple sub) = l1 at hkeep1 hshort1 hlost
  have hkeep2 : remembered (forgetOldest l1 maxRetiredPerSubscriber
      fun r => decide (r.subscriber = sub.subscriber)) other = remembered l1 other := by
    unfold forgetOldest
    split_ifs
    · apply countP_eraseP_of_disjoint
      intro r hr hr'
      exact hother ((of_decide_eq_true hr').symm.trans (of_decide_eq_true hr))
    · rfl
  have hshort := forgetOldest_eq_or_shorter l1 maxRetiredPerSubscriber
    (fun r => decide (r.subscriber = sub.subscriber)) (by decide)
  simp only at hlost
  generalize forgetOldest l1 maxRetiredPerSubscriber
    (fun r => decide (r.subscriber = sub.subscriber)) = l2 at hkeep2 hshort hlost
  have hlost' : remembered (forgetHeaviest l2 order) other < remembered l2 other := by
    rw [remembered, countP_append, ← remembered] at hlost
    omega
  obtain ⟨hfull, hmax⟩ := remembered_forgetHeaviest hlost'
  -- A full list after the two own steps means neither of them took anything.
  have hbound := h.inAll
  rcases hshort1 with rfl | hlt
  · rcases hshort with rfl | hlt
    · exact hmax
    · omega
  have hle : l2.length ≤ l1.length := by
    rcases hshort with rfl | hlt'
    · exact le_rfl
    · exact hlt'.le
  omega

end

structure SameTerms (a b : ProviderSub) : Prop where
  subscriber : b.subscriber = a.subscriber
  serviceId : b.serviceId = a.serviceId
  topic : b.topic = a.topic
  mode : b.mode = a.mode

lemma SameTerms.refl (a) : SameTerms a a := ⟨rfl, rfl, rfl, rfl⟩

lemma SameTerms.trans (h : SameTerms a b) (h' : SameTerms b c) : SameTerms a c :=
  ⟨h'.1.trans h.1, h'.2.trans h.2, h'.3.trans h.3, h'.4.trans h.4⟩

def Quiet (sub : ProviderSub) : Prop := ¬sub.admitted → sub.dirty = []

structure Revision (a b : ProviderSub) : Prop where
  terms : SameTerms a b
  quiet : Quiet a → Quiet b

lemma Revision.refl (a) : Revision a a := ⟨.refl a, id⟩

lemma Revision.trans (h : Revision a b) (h' : Revision b c) :
    Revision a c := ⟨h.terms.trans h'.terms, h'.quiet ∘ h.quiet⟩

inductive TableEvent
  | opened (subId : String) (sub : ProviderSub)
  | revised (subs : Table String ProviderSub)
  | expired (subId : String)
  | ended (subId : String) (sub : ProviderSub) (order : List String)
  | topics (topics : Table (String × String) Topic)

def applyEvent (p : Provider) : TableEvent → Provider
  | .opened subId sub => { p with subs := p.subs.insert subId sub }
  | .revised subs => { p with subs }
  | .expired subId => { p with subs := p.subs.erase subId }
  | .ended subId sub order =>
    { p with subs := p.subs.erase subId, retired := retireEntry p.retired subId sub order }
  | .topics topics => { p with topics }

def canOccur (p : Provider) : TableEvent → Prop
  | .opened subId sub =>
    get p.subs subId = none ∧ ¬p.isRetired sub.subscriber subId ∧ Quiet sub ∧
      (∀ id held, get p.subs id = some held →
        ¬(held.subscriber = sub.subscriber ∧ held.serviceId = sub.serviceId ∧
          held.topic = sub.topic)) ∧
      p.subs.entries.length < maxProviderSubscriptions ∧
      ((values p.subs).countP fun s => s.subscriber = sub.subscriber) < maxSubscriptionsPerPeer
  | .revised subs => ∀ id, Option.Rel Revision (get p.subs id) (get subs id)
  | .expired _ => True
  | .ended subId sub _ => get p.subs subId = some sub
  | .topics _ => True

def tableMachine : Machine Provider TableEvent := ⟨applyEvent, canOccur⟩

structure WellKept (p : Provider) : Prop where
  oneEach : ∀ id id' sub sub', get p.subs id = some sub → get p.subs id' = some sub' →
    sub.subscriber = sub'.subscriber → sub.serviceId = sub'.serviceId → sub.topic = sub'.topic →
    id = id'
  capacity : p.subs.entries.length ≤ maxProviderSubscriptions
  perPeer : ∀ s, ((values p.subs).countP fun sub => sub.subscriber = s) ≤ maxSubscriptionsPerPeer
  quiet : ∀ id sub, get p.subs id = some sub → Quiet sub
  notHeld : ∀ r ∈ p.retired, ∀ sub, get p.subs r.subId = some sub → sub.subscriber ≠ r.subscriber
  memory : MemoryBounded p.retired

lemma wellKept_new : WellKept (new interval timeout) where
  oneEach _ _ _ _ h := by cases h
  capacity := Nat.zero_le _
  perPeer _ := Nat.zero_le _
  quiet _ _ h := by cases h
  notHeld _ h := by cases h
  memory := ⟨fun _ _ _ => Nat.zero_le _, fun _ => Nat.zero_le _, Nat.zero_le _⟩

section
variable {subs : Table String ProviderSub}
variable {id : String} {sub : ProviderSub}

lemma revised_get (h : canOccur p (.revised subs)) (hg : get subs id = some sub) :
    ∃ old, get p.subs id = some old ∧ Revision old sub := by
  have hrel := h id
  rw [hg] at hrel
  cases hold : get p.subs id with
  | none =>
    rw [hold] at hrel
    cases hrel
  | some old =>
    rw [hold] at hrel
    cases hrel with
    | some hr => exact ⟨old, rfl, hr⟩

lemma tally_revised (h : canOccur p (.revised subs)) (w : ProviderSub → ℕ)
    (hw : ∀ a b, SameTerms a b → w a = w b) : tally subs w = tally p.subs w := by
  apply tally_congr
  intro id
  have hrel := h id
  cases hold : get p.subs id with
  | none =>
    rw [hold] at hrel
    generalize get subs id = o at hrel
    cases hrel
    rfl
  | some old =>
    rw [hold] at hrel
    generalize get subs id = o at hrel
    cases hrel with
    | some hr => exact congrArg some (hw _ _ hr.terms).symm

lemma wellKept_revised (hk : WellKept p)
    (h : canOccur p (.revised subs)) : WellKept { p with subs } where
  oneEach id id' sub sub' hg hg' hs hv ht := by
    obtain ⟨a, ha, hra⟩ := revised_get h hg
    obtain ⟨b, hb, hrb⟩ := revised_get h hg'
    apply hk.oneEach id id' a b ha hb
    · rw [← hra.terms.subscriber, ← hrb.terms.subscriber, hs]
    · rw [← hra.terms.serviceId, ← hrb.terms.serviceId, hv]
    · rw [← hra.terms.topic, ← hrb.terms.topic, ht]
  capacity := by
    have hcap := hk.capacity
    rw [← tally_one] at hcap ⊢
    rwa [tally_revised h (fun _ => 1) fun _ _ _ => rfl]
  perPeer s := by
    have hpeer := hk.perPeer s
    rw [countP_values] at hpeer ⊢
    rw [tally_revised h _ fun a b hab => by rw [hab.subscriber]]
    exact hpeer
  quiet id sub hg := by
    obtain ⟨a, ha, hr⟩ := revised_get h hg
    exact hr.quiet (hk.quiet id a ha)
  notHeld r hr sub hg := by
    obtain ⟨a, ha, hra⟩ := revised_get h hg
    rw [hra.terms.subscriber]
    exact hk.notHeld r hr a ha
  memory := hk.memory

lemma tally_erase_le {subs : Table String ProviderSub} {id} (w : ProviderSub → ℕ) :
    tally (subs.erase id) w ≤ tally subs w := by
  cases hg : get subs id with
  | none =>
    have hsame : subs.erase id = subs :=
      AList.ext (kerase_of_notMem_keys (get_eq_none_iff.1 hg))
    rw [hsame]
  | some sub =>
    have hsum := tally_erase subs w hg
    omega

lemma wellKept_erased (hk : WellKept p) {id : String} :
    WellKept { p with subs := p.subs.erase id } where
  oneEach a b sub sub' hg hg' := hk.oneEach a b sub sub' (of_get_erase hg).2
    (of_get_erase hg').2
  capacity := by
    have hcap := hk.capacity
    rw [← tally_one] at hcap ⊢
    exact (tally_erase_le _).trans hcap
  perPeer s := by
    have hpeer := hk.perPeer s
    rw [countP_values] at hpeer ⊢
    exact (tally_erase_le _).trans hpeer
  quiet a sub hg := hk.quiet a sub (of_get_erase hg).2
  notHeld r hr sub hg := hk.notHeld r hr sub (of_get_erase hg).2
  memory := hk.memory

lemma wellKept_ended (hk : WellKept p) {order} : WellKept (applyEvent p (.ended id sub order)) :=
  { wellKept_erased hk with
    notHeld := by
      intro r hr held hg
      rcases mem_retireEntry hr with hold | rfl
      · exact hk.notHeld r hold held (of_get_erase hg).2
      -- The id just retired is no longer in the table.
      exact absurd rfl (of_get_erase hg).1
    memory := retireEntry_bounded hk.memory }

lemma wellKept_opened (hk : WellKept p)
    (h : canOccur p (.opened id sub)) : WellKept (applyEvent p (.opened id sub)) := by
  obtain ⟨hnone, hretired, hquiet, hunique, hcap, hpeer⟩ := h
  have hnew : id ∉ p.subs := get_eq_none_iff.1 hnone
  constructor
  · intro a b x y ha hb hs hv ht
    rcases of_get_insert ha with ⟨rfl, rfl⟩ | ⟨-, hold⟩
    · rcases of_get_insert hb with ⟨rfl, rfl⟩ | ⟨-, hold'⟩
      · rfl
      · exact absurd ⟨hs.symm, hv.symm, ht.symm⟩ (hunique b y hold')
    rcases of_get_insert hb with ⟨rfl, rfl⟩ | ⟨-, hold'⟩
    · exact absurd ⟨hs, hv, ht⟩ (hunique a x hold)
    · exact hk.oneEach a b x y hold hold' hs hv ht
  · show (p.subs.insert id sub).entries.length ≤ _
    rw [← tally_one, tally_insert_new p.subs _ hnew, tally_one]
    omega
  · intro s
    show (values (p.subs.insert id sub)).countP _ ≤ _
    have hold := hk.perPeer s
    rw [countP_values] at hold ⊢
    rw [tally_insert_new p.subs _ hnew]
    by_cases hs : sub.subscriber = s
    · subst hs
      rw [countP_values] at hpeer
      simp only [decide_true, if_true]
      omega
    · simp only [hs, decide_false, Bool.false_eq_true, if_false]
      omega
  · intro a held hg
    rcases of_get_insert hg with ⟨-, rfl⟩ | ⟨-, hg⟩
    · exact hquiet
    · exact hk.quiet a held hg
  · intro r hr held hg heq
    rcases of_get_insert hg with ⟨hid, rfl⟩ | ⟨-, hg⟩
    · apply hretired
      apply any_eq_true.2
      exact ⟨r, hr, by simp [heq, hid]⟩
    · exact hk.notHeld r hr held hg heq
  · exact hk.memory

/-- Every event the table can meet keeps it. -/
lemma wellKept_event (hk : WellKept p) (h : canOccur p e) : WellKept (applyEvent p e) := by
  cases e with
  | opened id sub => exact wellKept_opened hk h
  | revised subs => exact wellKept_revised hk h
  | expired id => exact wellKept_erased hk
  | ended id sub order => exact wellKept_ended hk
  | topics topics => exact { hk with }

end

lemma wellKept_runs (hr : tableMachine.Runs p es p') (hk : WellKept p) : WellKept p' :=
  hr.invariant (C := fun _ _ => True) (fun _ _ hk he _ => wellKept_event hk he)
    (Machine.along_of_forall fun _ _ _ => trivial) hk

def Fair (p : Provider) : TableEvent → Prop
  | .ended subId sub order => ∀ other, other ≠ sub.subscriber →
    remembered (retireEntry p.retired subId sub order) other < remembered p.retired other →
    ∀ s, remembered p.retired s ≤ remembered p.retired other
  | _ => True

lemma fair_runs (hr : tableMachine.Runs p es p')
    (hk : WellKept p) : tableMachine.Along Fair p es := by
  obtain ⟨rfl, he⟩ := hr
  induction es generalizing p with
  | nil => trivial
  | cons e es ih =>
    refine ⟨?_, ih (wellKept_event hk he.1) he.2⟩
    cases e with
    | ended id sub order => exact fun other hother hlost => retireEntry_fair hk.memory hother hlost
    | _ => trivial

end OfflineProtocol.Provider
