import OfflineProtocol.LeafRuns

/-! Unpairing erases every secret of the pair: over any calls, faults and power
cuts the epoch records of a pair stay within the sweep that forgetting makes, as
long as no epoch is entered with a record left too far behind and no session starts
beside what an earlier one left. -/
namespace OfflineProtocol.LeafDevice
open KeyedTable Interruption EventTrace Preserves FlashOp List
variable {f : Flash} {p : String} {k : ℕ}

def records (f : Flash) (p : String) : List ℕ := (f.epochs.keys.filter (·.1 = p)).map Prod.snd

def sweepSpan : ℕ := GroupStateAdapter.priorEpochRetention + forgetEpochSlack

lemma mem_records : k ∈ records f p ↔ (p, k) ∈ f.epochs := by
  simp only [records, mem_map, mem_filter, decide_eq_true_eq, AList.mem_keys]
  constructor
  · rintro ⟨⟨q, n⟩, ⟨hmem, rfl⟩, rfl⟩
    exact hmem
  · exact fun hmem => ⟨(p, k), ⟨hmem, rfl⟩, rfl⟩

lemma mem_sweep : k ∈ sweep a ↔ a ≤ k + sweepSpan ∧ k ≤ sweepCeiling a := by
  unfold sweep
  rw [mem_range'_1]
  unfold sweepFloor sweepSpan
  omega

/-- What the epoch records of a pair have to do with its session: none outlasts
the session, those of a session that has left epochs are close to the last it left,
and one that has left none has at most a record of the epoch it is in. -/
structure EpochsHeld (f : Flash) (p : String) : Prop where
  bound : ∀ k ∈ records f p, k ≤ u64Max
  bare : get f.states p = none → ∀ k, k ∉ records f p
  marked : ∀ entry m, get f.states p = some entry → entry.marker = some m →
    ∀ k ∈ records f p, m ≤ k + sweepSpan ∧ k ≤ m + 1
  fresh : ∀ entry, get f.states p = some entry → entry.marker = none →
    (∀ k ∈ records f p, k = entry.group.epoch) ∧
      ∀ h ∈ get f.highWater p, entry.group.epoch ∈ sweep h

lemma EpochsHeld.mem_sweep (h : EpochsHeld f p)
    (hk : k ∈ records f p) : k ∈ sweep (sweepAnchor f p) := by
  have hbound := h.bound k hk
  rw [LeafDevice.mem_sweep]
  unfold sweepAnchor sweepCeiling Flash.marker
  cases hs : get f.states p with
  | none => exact absurd hk (h.bare hs k)
  | some entry =>
    cases hm : entry.marker with
    | some m =>
      have hnear := h.marked entry m hs hm k hk
      simp only [hm]
      unfold forgetEpochSlack
      omega
    | none =>
      obtain ⟨hepoch, hwater⟩ := h.fresh entry hs hm
      simp only [hm]
      cases hh : get f.highWater p with
      | none =>
        simp only
        rw [hepoch k hk] at hbound ⊢
        omega
      | some high =>
        simp only
        have hin := hwater high hh
        rw [← hepoch k hk, LeafDevice.mem_sweep] at hin
        exact hin

lemma EpochsHeld.mono (h : EpochsHeld f p)
    (hrecord : ∀ k ∈ records g p, k ∈ records f p) (hstates : get g.states p = get f.states p)
    (hwater : ∀ n ∈ get g.highWater p, n ∈ get f.highWater p) : EpochsHeld g p where
  bound k hk := h.bound k (hrecord k hk)
  bare hs k hk := h.bare (hstates ▸ hs) k (hrecord k hk)
  marked entry m hs hm k hk := h.marked entry m (hstates ▸ hs) hm k (hrecord k hk)
  fresh entry hs hm := by
    obtain ⟨hepoch, hhigh⟩ := h.fresh entry (hstates ▸ hs) hm
    exact ⟨fun k hk => hepoch k (hrecord k hk), fun n hn => hhigh n (hwater n hn)⟩

def Erasable (s : Part Flash FlashOp) : Prop := ∀ p, EpochsHeld s.durable p

def Tame : FlashOp → Prop
  | .storeEpoch _ _ _ => False
  | .storeState _ _ => False
  | .storeHighWater _ _ => False
  | .deleteState _ => False
  | _ => True

lemma records_erase (h : k ∈ records { f with epochs := f.epochs.erase (p, n) } q) :
    k ∈ records f q ∧ (q, k) ≠ (p, n) := by
  rw [mem_records] at h ⊢
  have hmem : (q, k) ∈ f.epochs.erase (p, n) := h
  rw [mem_erase_iff] at hmem
  exact ⟨hmem.2, hmem.1⟩

lemma tame_effect (h : Tame op) (hf : EpochsHeld f p) : EpochsHeld (op.effect f) p := by
  cases op with
  | storeEpoch _ _ _ => exact absurd h id
  | storeState _ _ => exact absurd h id
  | storeHighWater _ _ => exact absurd h id
  | deleteState _ => exact absurd h id
  | trimEpoch q n => exact hf.mono (fun k hk => (records_erase hk).1) rfl fun n hn => hn
  | deleteEpoch q n => exact hf.mono (fun k hk => (records_erase hk).1) rfl fun n hn => hn
  | deleteHighWater q =>
    refine hf.mono (fun k hk => hk) rfl fun n hn => ?_
    exact (of_get_erase hn).2
  | _ => exact hf.mono (fun k hk => hk) rfl fun n hn => hn

lemma erasable_tame : Keeps Tame Erasable := by
  intro s op fault hop hs p
  unfold Part.after
  split_ifs
  · exact tame_effect hop (hs p)
  · exact hs p

section
variable {s : Part Flash FlashOp} {peer : String}
variable {f : Flash} {fault : Fault} {e : ℕ}

def Restates (peer : String) (group : Group) (f : Flash) : Prop :=
  f.marker peer = none → (∀ k ∈ records f peer, k = group.epoch) ∧
    ∀ h ∈ get f.highWater peer, group.epoch ∈ sweep h

lemma EpochsHeld.restate (h : EpochsHeld f peer) (hr : Restates peer group f) :
    EpochsHeld { f with states := f.states.insert peer ⟨f.marker peer, group⟩ } peer where
  bound := h.bound
  bare hs := by
    have hins : get (f.states.insert peer ⟨f.marker peer, group⟩) peer = none := hs
    rw [get_insert_self] at hins
    cases hins
  marked entry m hs hm k hk := by
    have hins : get (f.states.insert peer ⟨f.marker peer, group⟩) peer = some entry := hs
    rw [get_insert_self] at hins
    cases hins
    have hmark : f.marker peer = some m := hm
    cases hold : get f.states peer with
    | none =>
      unfold Flash.marker at hmark
      rw [hold] at hmark
      cases hmark
    | some entry => exact h.marked entry m hold ((marker_eq hold).symm.trans hmark) k hk
  fresh entry hs hm := by
    have hins : get (f.states.insert peer ⟨f.marker peer, group⟩) peer = some entry := hs
    rw [get_insert_self] at hins
    cases hins
    exact hr hm

lemma epochsHeld_stored (h : ∀ p, EpochsHeld f p)
    (hpeer : EpochsHeld { f with states := f.states.insert peer entry } peer) (p) :
    EpochsHeld { f with states := f.states.insert peer entry } p := by
  by_cases hp : p = peer
  · rw [hp]
    exact hpeer
  · exact (h p).mono (fun k hk => hk) (get_insert_ne hp) fun n hn => hn

lemma erasable_stored (hs : Erasable s)
    (hpeer : EpochsHeld { s.durable with states := s.durable.states.insert peer entry } peer) :
    Erasable (s.after effect (.storeState peer entry) fault) := by
  intro p
  unfold Part.after
  split_ifs
  · exact epochsHeld_stored hs hpeer p
  · exact hs p

lemma erasable_bookkeeping : Keeps Bookkeeping Erasable := by
  refine erasable_tame.mono fun op hop => ?_
  cases hop with
  | keyPackage h => cases h <;> trivial
  | index h => cases h; trivial
  | _ => trivial

lemma erasable_afterState : Keeps (AfterState peer) Erasable := by
  refine erasable_tame.mono fun op hop => ?_
  cases hop with
  | trimEpoch n => trivial
  | keyPackage h => cases h <;> trivial

lemma restate_spec (group consumed) : Triple (fun s => Erasable s ∧ Restates peer group s.durable)
      (writeToStorage peer group [] [] consumed) (fun _ => Erasable) Erasable := by
  apply writeToStorage_spec
  · exact nofun
  · exact erasable_afterState
  · exact fun hne => absurd rfl hne
  · rintro s fault ⟨hs, hr⟩
    have hstored : Erasable (s.after effect
        (.storeState peer ⟨s.durable.marker peer, group⟩) fault) :=
      erasable_stored hs ((hs peer).restate hr)
    exact ⟨fun _ => hstored, hstored⟩
  · exact fun s hs => hs.1
  · exact fun s hs => hs

structure Enters (peer : String) (e : ℕ) (f : Flash) : Prop where
  bound : e ≤ u64Max
  behind : ∀ k ∈ records f peer, e ≤ k + sweepSpan
  marked : ∀ m, f.marker peer = some m → e ≤ m + 1 ∧ m ≤ e + sweepSpan
  fresh : ∀ entry, get f.states peer = some entry → entry.marker = none → e = entry.group.epoch
  held : (get f.states peer).isSome

lemma records_insert : k ∈ records { f with epochs := f.epochs.insert (p, n) w } q ↔
      (q, k) = (p, n) ∨ k ∈ records f q := by
  rw [mem_records, mem_records]
  exact AList.mem_insert f.epochs

lemma enters_storeEpoch (hs : Erasable s) (he : Enters peer e s.durable) :
    Erasable (s.after effect (.storeEpoch peer e w) fault) ∧
      Enters peer e (s.after effect (.storeEpoch peer e w) fault).durable := by
  by_cases happlied : fault.applied
  · unfold Erasable
    rw [Part.after_applied happlied]
    set f := s.durable with hf
    have hsplit {q : String} {k : ℕ} (hk : k ∈ records (effect (.storeEpoch peer e w) f) q) :
        (q = peer ∧ k = e) ∨ k ∈ records f q := by
      rcases records_insert.1 hk with heq | hold
      · exact .inl ⟨congrArg Prod.fst heq, congrArg Prod.snd heq⟩
      · exact .inr hold
    constructor
    · intro q
      constructor
      · intro k hk
        rcases hsplit hk with ⟨rfl, rfl⟩ | hold
        · exact he.bound
        · exact (hs q).bound k hold
      · intro hnone k hk
        rcases hsplit hk with ⟨rfl, rfl⟩ | hold
        · have hheld := he.held
          rw [show get f.states q = none from hnone] at hheld
          cases hheld
        · exact (hs q).bare hnone k hold
      · intro entry m hst hm k hk
        rcases hsplit hk with ⟨rfl, rfl⟩ | hold
        · exact (he.marked m ((marker_eq hst).trans hm)).symm
        · exact (hs q).marked entry m hst hm k hold
      · intro entry hst hm
        obtain ⟨hepoch, hwater⟩ := (hs q).fresh entry hst hm
        refine ⟨fun k hk => ?_, hwater⟩
        rcases hsplit hk with ⟨rfl, rfl⟩ | hold
        · exact he.fresh entry hst hm
        · exact hepoch k hold
    · refine ⟨he.bound, fun k hk => ?_, he.marked, he.fresh, he.held⟩
      rcases hsplit hk with ⟨-, rfl⟩ | hold
      · exact Nat.le_add_right _ _
      · exact he.behind k hold
  · unfold Erasable
    rw [Part.after_unapplied happlied]
    exact ⟨hs, he⟩

lemma enters_storeState (hs : Erasable s) (he : Enters peer e s.durable) :
    Erasable (s.after effect (.storeState peer
      ⟨GroupStateAdapter.advance (s.durable.marker peer) [e], group⟩) fault) := by
  apply erasable_stored hs
  set f := s.durable with hf
  constructor
  · exact (hs peer).bound
  · intro hnone
    have hins : get (f.states.insert peer _) peer = none := hnone
    rw [get_insert_self] at hins
    cases hins
  · intro entry m hst hm k hk
    have hins : get (f.states.insert peer _) peer = some entry := hst
    rw [get_insert_self] at hins
    cases hins
    have hbeh := he.behind k hk
    obtain ⟨old, hold⟩ := Option.isSome_iff_exists.1 he.held
    have hmark : f.marker peer = old.marker := marker_eq hold
    cases hprev : old.marker with
    | none =>
      rw [hmark, hprev] at hm
      have hme : e = m := Option.some.inj hm
      have hepoch := ((hs peer).fresh old hold hprev).1 k hk
      have hsame := he.fresh old hold hprev
      omega
    | some n =>
      rw [hmark, hprev] at hm
      have hmax : max n e = m := Option.some.inj hm
      have hnear := (hs peer).marked old n hold hprev k hk
      omega
  · intro entry hst hm
    have hins : get (f.states.insert peer _) peer = some entry := hst
    rw [get_insert_self] at hins
    cases hins
    cases hprev : f.marker peer <;> (rw [hprev] at hm; cases hm)

lemma marker_after (h : ∀ f, (op.effect f).states = f.states) (fault) :
    (s.after effect op fault).durable.marker peer = s.durable.marker peer := by
  unfold Flash.marker Part.after
  split_ifs
  · rw [h]
  · rfl

lemma marked_storeHighWater :
    Keeps (· = .storeHighWater peer n) (fun s => Erasable s ∧ (s.durable.marker peer).isSome) := by
  rintro s op fault rfl ⟨hs, hm⟩
  refine ⟨fun p => ?_, ?_⟩
  · by_cases happlied : fault.applied
    · rw [Part.after_applied happlied]
      have hold := hs p
      refine ⟨hold.bound, hold.bare, hold.marked, fun entry hst hnone => ?_⟩
      obtain ⟨hepoch, hwater⟩ := hold.fresh entry hst hnone
      refine ⟨hepoch, fun h hh => hwater h ?_⟩
      rcases of_get_insert hh with ⟨rfl, -⟩ | ⟨-, hins⟩
      · have hentry : get s.durable.states p = some entry := hst
        rw [marker_eq hentry, hnone] at hm
        cases hm
      · exact hins
    · rw [Part.after_unapplied happlied]
      exact hs p
  · rwa [marker_after fun _ => rfl]

lemma enter_spec (group) (hone : inserts ++ updates = [e]) :
    Triple (fun s => Erasable s ∧ Enters peer e s.durable)
      (writeToStorage peer group inserts updates none) (fun _ => Erasable) Erasable := by
  have hmarked (m) : (GroupStateAdapter.advance m [e]).isSome := by cases m <;> rfl
  have hkeep : Triple (fun s => Erasable s ∧ Enters peer e s.durable)
      (writeToStorage peer group inserts updates none)
      (fun _ s => Erasable s ∧ (s.durable.marker peer).isSome) Erasable := by
    apply writeToStorage_spec
    · rw [hone]
      rintro n hn s op fault rfl ⟨hs, he⟩
      rw [mem_singleton.1 hn]
      exact enters_storeEpoch hs he
    · rintro s op fault hop ⟨hs, hm⟩
      refine ⟨erasable_afterState s op fault hop hs, ?_⟩
      rwa [marker_after fun f => ?_]
      cases hop with
      | trimEpoch n => rfl
      | keyPackage h => cases h <;> rfl
    · exact fun _ n => onFlash_preserves marked_storeHighWater rfl
    · rw [hone]
      rintro s fault ⟨hs, he⟩
      refine ⟨fun hdone => ⟨enters_storeState hs he, ?_⟩, enters_storeState hs he⟩
      rw [hdone, Part.after_applied rfl, marker_eq get_insert_self]
      exact hmarked _
    · exact fun s hs => hs.1
    · exact fun s hs => hs.1
  exact hkeep.post (fun _ _ hs => hs.1)

end

section
variable {me : LeafIdentity} {peer : String}

/-- Nothing of a session with `peer` is on flash. -/
structure Gone (peer : String) (f : Flash) : Prop where
  states : get f.states peer = none
  epochs : ∀ k, k ∉ records f peer
  highWater : get f.highWater peer = none

/-- The sweep finds every record, so the state entry goes last of what it names. -/
lemma forgetSession_spec :
    Triple Erasable (forgetSession me peer) (fun _ s => Erasable s ∧ Gone peer s.durable)
      Erasable := by
  have hanchor : Triple Erasable (read fun f => sweepAnchor f peer : LeafM ℕ)
      (fun highest s => Erasable s ∧ ∀ k ∈ records s.durable peer, k ∈ sweep highest) Erasable :=
    .read fun s hs => ⟨hs, fun k hk => (hs peer).mem_sweep hk⟩
  have hsweep (highest : ℕ) : Triple
      (fun s => Erasable s ∧ ∀ k ∈ records s.durable peer, k ∈ sweep highest)
      (each (sweep highest) fun epoch => onFlash (.deleteEpoch peer epoch))
      (fun _ s => Erasable s ∧ ∀ k ∈ records s.durable peer, k ∈ ([] : List ℕ)) Erasable := by
    apply Triple.each (I := fun rest s => Erasable s ∧ ∀ k ∈ records s.durable peer, k ∈ rest)
    intro epoch rest
    apply Triple.operate
    · rintro s ⟨hs, hrest⟩
      refine ⟨erasable_tame s _ .done trivial hs, fun k hk => ?_⟩
      obtain ⟨hold, hne⟩ := records_erase (p := peer) (n := epoch) hk
      rcases mem_cons.1 (hrest k hold) with rfl | hmem
      · exact absurd rfl hne
      · exact hmem
    · rintro s fault ⟨hs, -⟩ -
      exact erasable_tame s _ fault trivial hs
  have hstate : Triple (fun s => Erasable s ∧ ∀ k ∈ records s.durable peer, k ∈ ([] : List ℕ))
      (onFlash (.deleteState peer))
      (fun _ s => Erasable s ∧ get s.durable.states peer = none ∧ ∀ k, k ∉ records s.durable peer)
      Erasable := by
    have hdel : ∀ s, Erasable s → (∀ k ∈ records s.durable peer, k ∈ ([] : List ℕ)) → ∀ fault,
        Erasable (s.after effect (.deleteState peer) fault) := by
      intro s hs hnone fault p
      by_cases happlied : fault.applied
      · rw [Part.after_applied happlied]
        by_cases hp : p = peer
        · subst hp
          have hgone : ∀ k, k ∉ records s.durable p := fun k hk => absurd (hnone k hk) not_mem_nil
          exact ⟨fun k hk => absurd hk (hgone k), fun _ => hgone,
            fun _ _ _ _ k hk => absurd hk (hgone k), fun entry hst _ => by
              have herase : get (s.durable.states.erase p) p = some entry := hst
              rw [get_erase, if_pos rfl] at herase
              cases herase⟩
        · refine (hs p).mono (fun k hk => hk) ?_ fun n hn => hn
          show get (s.durable.states.erase peer) p = _
          rw [get_erase_ne hp]
      · rw [Part.after_unapplied happlied]
        exact hs p
    apply Triple.operate
    · rintro s ⟨hs, hnone⟩
      refine ⟨hdel s hs hnone .done, ?_, fun k hk => absurd (hnone k hk) not_mem_nil⟩
      show get (s.durable.states.erase peer) peer = none
      rw [get_erase, if_pos rfl]
    · rintro s fault ⟨hs, hnone⟩ -
      exact hdel s hs hnone fault
  have hwater : Triple
      (fun s => Erasable s ∧ get s.durable.states peer = none ∧ ∀ k, k ∉ records s.durable peer)
      (onFlash (.deleteHighWater peer)) (fun _ s => Erasable s ∧ Gone peer s.durable) Erasable := by
    apply Triple.operate
    · rintro s ⟨hs, hst, hrec⟩
      refine ⟨erasable_tame s _ .done trivial hs, hst, hrec, ?_⟩
      show get (s.durable.highWater.erase peer) peer = none
      rw [get_erase, if_pos rfl]
    · rintro s fault ⟨hs, -⟩ -
      exact erasable_tame s _ fault trivial hs
  refine Triple.bind Preserves.lift fun _ => ?_
  refine .bind hanchor fun highest => ?_
  refine .bind (hsweep highest) fun _ => ?_
  exact .bind hstate fun _ => hwater

lemma forgetSession_erasable : Preserves Erasable (forgetSession me peer) :=
  forgetSession_spec.post (fun _ _ hs => hs.1)

def Inert (op : FlashOp) : Prop :=
  ∀ f : Flash, (op.effect f).states = f.states ∧ (op.effect f).epochs = f.epochs ∧
    (op.effect f).highWater = f.highWater

lemma gone_inert : Keeps Inert (fun s => Gone peer s.durable) := by
  intro s op fault hop hs
  by_cases happlied : fault.applied
  · rw [Part.after_applied happlied]
    obtain ⟨hst, hep, hhw⟩ := hop s.durable
    have hrecord : records (op.effect s.durable) peer = records s.durable peer := by
      unfold records
      rw [hep]
    exact ⟨hst ▸ hs.states, fun k => hrecord ▸ hs.epochs k, hhw ▸ hs.highWater⟩
  · rw [Part.after_unapplied happlied]
    exact hs

lemma keyPackageOp_inert (h : KeyPackageOp op) : Inert op := by
  cases h <;> exact fun _ => ⟨rfl, rfl, rfl⟩

/-- Everything of the pair is off flash. `reference` is the key package its record
named. -/
structure Erased (peer : String) (reference : Option String) (f : Flash) : Prop where
  session : Gone peer f
  record : get f.peers peer = none
  keyPackage : ∀ r ∈ reference, get f.keyPackages r = none

lemma erase_spec :
    Triple (fun s => Gone peer s.durable) (KeyPackageAdapter.erase reference)
      (fun _ s => Gone peer s.durable ∧ get s.durable.keyPackages reference = none)
      (fun _ => True) := by
  have hdel : Triple (fun s => Gone peer s.durable) (onFlash (.deleteKeyPackage reference))
      (fun _ s => Gone peer s.durable ∧ get s.durable.keyPackages reference = none)
      (fun _ => True) := by
    apply Triple.operate
    · intro s hs
      refine ⟨gone_inert s _ .done (keyPackageOp_inert (.delete reference)) hs, ?_⟩
      show get (s.durable.keyPackages.erase reference) reference = none
      rw [get_erase, if_pos rfl]
    · exact fun _ _ _ _ => trivial
  have hindex (index) : Preserves
      (fun s => Gone peer s.durable ∧ get s.durable.keyPackages reference = none)
      (onFlash (.storeKeyPackageIndex index)) := by
    have hkeeps : Keeps (· = .storeKeyPackageIndex index) fun s =>
        Gone peer s.durable ∧ get s.durable.keyPackages reference = none := by
      rintro s op fault rfl ⟨hs, hnone⟩
      refine ⟨gone_inert s _ fault (keyPackageOp_inert (.index index)) hs, ?_⟩
      unfold Part.after
      split_ifs <;> exact hnone
    exact onFlash_preserves hkeeps rfl
  refine .bind hdel fun _ => ?_
  refine Triple.bind (Preserves.read.within fun _ _ => trivial) fun index => ?_
  split_ifs
  · exact .bind ((hindex _).attempt.within fun _ _ => trivial) fun _ =>
      .pure fun _ => id
  · exact .pure fun _ => id

lemma deletePeer_spec :
    Triple (fun s => Gone peer s.durable ∧ ∀ r ∈ reference, get s.durable.keyPackages r = none)
      (onFlash (.deletePeer peer)) (fun _ s => Erased peer reference s.durable)
      (fun _ => True) := by
  apply Triple.operate
  · rintro s ⟨hs, hkey⟩
    refine ⟨gone_inert s _ .done (fun _ => ⟨rfl, rfl, rfl⟩) hs, ?_, hkey⟩
    show get (s.durable.peers.erase peer) peer = none
    rw [get_erase, if_pos rfl]
  · exact fun _ _ _ _ => trivial

lemma erased_peerIndex : Keeps PeerIndexOp fun s => Erased peer reference s.durable := by
  intro s op fault hop hs
  cases hop with
  | store index =>
    refine ⟨gone_inert s _ fault (fun _ => ⟨rfl, rfl, rfl⟩) hs.session, ?_, ?_⟩
    · unfold Part.after
      split_ifs <;> exact hs.record
    unfold Part.after
    split_ifs <;> exact hs.keyPackage

/-- The whole of an unpairing. -/
lemma unpair_erases (reference) :
    Triple (fun s => Erasable s ∧ reference = (s.durable.peerRecord peer).keyPackageRef)
      (unpair me peer) (fun _ s => Erased peer reference s.durable) (fun _ => True) := by
  have hread : Triple (fun s => Erasable s ∧ reference = (s.durable.peerRecord peer).keyPackageRef)
      (read fun f => (f.peerRecord peer).keyPackageRef : LeafM (Option String))
      (fun minted s => Erasable s ∧ minted = reference) (fun _ => True) :=
    .read fun s hs => ⟨hs.1, hs.2.symm⟩
  have hsession : Triple Erasable (forgetSession me peer) (fun _ s => Gone peer s.durable)
      (fun _ => True) :=
    forgetSession_spec.mono (fun _ => id) (fun _ _ hs => hs.2) fun _ _ => trivial
  have hforg : Triple (fun s => Erasable s ∧ reference = (s.durable.peerRecord peer).keyPackageRef)
      (forgetPeer me peer) (fun _ s => Erased peer reference s.durable) (fun _ => True) := by
    refine .bind hread fun minted => .given fun hmint => ?_
    subst hmint
    refine .bind hsession fun _ => ?_
    cases minted with
    | none =>
      exact deletePeer_spec.pre fun s hs => ⟨hs, fun r hr => by cases hr⟩
    | some reference =>
      refine .bind (erase_spec.post ?_)
        fun _ => deletePeer_spec
      rintro _ s ⟨hs, hnone⟩
      refine ⟨hs, fun r hr => ?_⟩
      cases hr
      exact hnone
  refine .bind hforg fun _ => ?_
  refine Triple.bind (Preserves.read.within fun _ _ => trivial) fun index => ?_
  split_ifs
  · exact (onFlash_preserves erased_peerIndex (.store _)).within fun _ _ => trivial
  · exact .pure fun _ => id

end

section
variable {me : LeafIdentity} {peer : String}
variable {group : Group}

lemma restates_loaded (hs : Erasable s) (hg : get s.durable.states peer = some entry)
    (hepoch : group.epoch = entry.group.epoch) : Restates peer group s.durable := by
  intro hnone
  rw [marker_eq hg] at hnone
  rw [hepoch]
  exact (hs peer).fresh entry hg hnone

lemma sealContent_erasable : Preserves Erasable (sealContent me peer) := by
  refine Triple.bind (loadGroup_spec me) fun group => ?_
  refine Triple.bind (Preserves.lift.within fun s hs => hs.1) fun _ => ?_
  refine .bind ((restate_spec _ none).pre ?_) fun _ => ?_
  · rintro s ⟨hs, entry, hg, rfl⟩
    exact ⟨hs, restates_loaded hs hg rfl⟩
  refine bind Preserves.read fun record => ?_
  exact Bookkeeping.build erasable_bookkeeping

def writes (f : Flash) (message : LeafMessage) (opened : Opened) : Option ℕ :=
  match message.content, opened with
  | .encrypted _, .commit _ _ => (get f.states message.sender).map fun entry => entry.group.epoch
  | .encrypted _, .application _ _ (some prior) => some prior
  | _, _ => none

/-- No epoch is written with a record of the pair left further behind it than the
sweep reaches, and no session starts beside what the sweep around it would miss.
Epochs are 64-bit numbers. -/
def FrameNear (f : Flash) (message : LeafMessage) (opened : Opened) : Prop :=
  (∀ e ∈ writes f message opened, e ≤ u64Max ∧ ∀ k ∈ records f message.sender, e ≤ k + sweepSpan) ∧
  ∀ welcome ∈ offered message, f.marker message.sender = none →
    (∀ k ∈ records f message.sender, k = welcome.epoch) ∧
      ∀ h ∈ get f.highWater message.sender, welcome.epoch ∈ sweep h

instance (f : Flash) (message : LeafMessage) (opened : Opened) :
    Decidable (FrameNear f message opened) :=
  inferInstanceAs (Decidable ((∀ e ∈ writes f message opened, _ ∧ ∀ k ∈ records f _, _) ∧
    ∀ welcome ∈ offered message, _ → (∀ k ∈ records f _, _) ∧ ∀ h ∈ get f.highWater _, _))

lemma processIncoming_enters {next} (hs : Erasable s) (hc : message.content = .encrypted body)
    (hnear : FrameNear s.durable message opened)
    (hg : get s.durable.states message.sender = some entry)
    (hok : processIncoming s.durable message.sender entry.group opened =
      .ok (next, inserts, updates)) :
    (inserts ++ updates = [] ∧ next.epoch = entry.group.epoch) ∨
      ∃ e, inserts ++ updates = [e] ∧ Enters message.sender e s.durable := by
  have hheld : (get s.durable.states message.sender).isSome := by rw [hg]; rfl
  cases opened with
  | refused => cases hok
  | other sealer =>
    cases hok
    exact .inl ⟨rfl, rfl⟩
  | application sender text prior =>
    cases prior with
    | none =>
      cases hok
      exact .inl ⟨rfl, rfl⟩
    | some prior =>
      simp only [processIncoming] at hok
      split_ifs at hok with hrec
      cases hok
      have hmem : prior ∈ records s.durable message.sender :=
        mem_records.2 (get_isSome_iff.1 hrec)
      have hwritten : writes s.durable message (.application sender text (some prior)) =
          some prior := by
        unfold writes
        rw [hc]
      obtain ⟨hbound, hbeh⟩ := hnear.1 prior hwritten
      refine .inr ⟨prior, rfl, hbound, hbeh, fun m hm => ?_, fun e he hnone => ?_, hheld⟩
      · rw [marker_eq hg] at hm
        exact ((hs message.sender).marked entry m hg hm prior hmem).symm
      · exact ((hs message.sender).fresh e he hnone).1 prior hmem
  | commit committer roster =>
    unfold processIncoming at hok
    split_ifs at hok with hseq
    cases hok
    have hwritten : writes s.durable message (.commit committer roster) =
        some entry.group.epoch := by
      unfold writes
      rw [hc, hg]
      rfl
    obtain ⟨hbound, hbeh⟩ := hnear.1 _ hwritten
    refine .inr ⟨entry.group.epoch, rfl, hbound, hbeh, fun m hm => ?_, fun e he hnone => ?_, hheld⟩
    · rw [hm] at hseq
      have hnext : entry.group.epoch = m + 1 := of_decide_eq_true hseq
      omega
    rw [hg] at he
    cases he
    rfl

lemma writeOpened_erasable {next} (hc : message.content = .encrypted body)
    (hok : processIncoming f message.sender group opened = .ok (next, inserts, updates)) :
    Triple (fun s => ((Erasable s ∧ FrameNear s.durable message opened) ∧
        Loaded message.sender group s) ∧ f = s.durable)
      (writeToStorage message.sender next inserts updates none) (fun _ => Erasable) Erasable := by
  rintro faults s ⟨⟨⟨hs, hnear⟩, entry, hg, rfl⟩, rfl⟩
  rcases processIncoming_enters hs hc hnear hg hok with ⟨hnil, hepoch⟩ | ⟨e, hone, he⟩
  · obtain ⟨rfl, rfl⟩ := append_eq_nil_iff.1 hnil
    exact restate_spec next none faults s ⟨hs, restates_loaded hs hg hepoch⟩
  · exact enter_spec next hone faults s ⟨hs, he⟩

lemma onEncrypted_erasable (hc : message.content = .encrypted body) :
    Triple (fun s => Erasable s ∧ FrameNear s.durable message opened)
      (onEncrypted me message body opened) (fun _ => Erasable) Erasable := by
  refine onEncrypted_spec me body opened (fun s hs => hs.1) fun f group next inserts updates h => ?_
  refine .bind (writeOpened_erasable hc h.processed) fun _ => ?_
  exact bind Preserves.lift fun _ => pure

lemma joinGroup_epoch
    (h : joinGroup f welcome = .ok (group, consumed)) : group.epoch = welcome.epoch := by
  unfold joinGroup at h
  split at h
  · split_ifs at h
    cases h
    rfl
  · cases h

lemma onWelcome_erasable (hc : message.content = .welcome body) {now opened} :
    Triple (fun s => Erasable s ∧ FrameNear s.durable message opened)
      (onWelcome me message body now) (fun _ => Erasable) Erasable := by
  have hindex : Preserves Erasable (indexPeer message.sender) :=
    indexPeer_preserves (erasable_tame.mono fun _ hop => by cases hop; trivial)
  refine onWelcome_spec me (fun s hs => hs.1) fun f welcome group consumed h => ?_
  refine .bind ((restate_spec group (some consumed)).pre ?_) fun _ => ?_
  · rintro s ⟨⟨hs, hnear⟩, -⟩
    refine ⟨hs, fun hnone => ?_⟩
    rw [joinGroup_epoch h.joined]
    exact hnear.2 welcome (h.offered_by hc) hnone
  · refine .bind hindex fun _ => ?_
    exact bind sealContent_erasable fun _ => pure

lemma handle_erasable {message now reference opened} :
    Triple (fun s => Erasable s ∧ FrameNear s.durable message opened)
      (handle me message now reference opened) (fun _ => Erasable) Erasable :=
  Bookkeeping.handle erasable_bookkeeping (fun _ => forgetSession_erasable)
    (fun _ hc => onWelcome_erasable hc) fun _ hc => onEncrypted_erasable hc

end

/-- A frame is handled with the records of its sender's pair near. -/
def EpochsNear (w : LeafWorld) (op : LeafOp) : Prop :=
  match op.call with
  | .handle message _ _ opened => FrameNear w.flash message opened
  | _ => True

instance (w : LeafWorld) : ∀ op, Decidable (EpochsNear w op) := by
  rintro ⟨call, faults⟩
  cases call <;> dsimp only [EpochsNear] <;> infer_instance

lemma erasable_step (me w op) (h : Erasable ⟨w.flash, []⟩)
    (hc : EpochsNear w op) : Erasable ⟨(step me w op).1.flash, []⟩ := by
  refine Bookkeeping.step erasable_bookkeeping (fun _ => forgetSession_erasable)
    (fun _ => sealContent_erasable) (fun message now reference opened hcall => ?_)
    (fun _ => id) h
  refine handle_erasable.pre ?_
  rintro s ⟨hs, hflash⟩
  rw [hflash]
  exact ⟨hs, by simpa only [EpochsNear, hcall] using hc⟩

/-- Whatever calls came before, and however their operations on flash ended, an
unpairing that returns leaves nothing of the pair on flash: no state, epoch or
high-water record, no peer record, and not the key package that record named. -/
theorem unpair_erases_the_pair (me : LeafIdentity) (ops : List LeafOp) (peer : String) (now : ℕ)
    (faults : ℕ → Fault) (handled : Handled) (hc : AlongSteps (step me) EpochsNear .new ops)
    (hr : (run me (runSteps (step me) .new ops).1.flash ⟨.unpair peer now, faults⟩).1 =
      .returned handled) :
    Erased peer ((runSteps (step me) .new ops).1.flash.peerRecord peer).keyPackageRef
      (run me (runSteps (step me) .new ops).1.flash ⟨.unpair peer now, faults⟩).2.durable := by
  have hnew : Erasable ⟨LeafWorld.new.flash, []⟩ := by
    intro p
    have hnone : ∀ k, k ∉ records .empty p := nofun
    exact ⟨fun k hk => absurd hk (hnone k), fun _ => hnone,
      fun _ _ _ _ k hk => absurd hk (hnone k), nofun⟩
  have hrun : Erasable ⟨(runSteps (step me) .new ops).1.flash, []⟩ :=
    runSteps_along (P := fun w => Erasable ⟨w.flash, []⟩) (erasable_step me) hc hnew
  set f := (runSteps (step me) .new ops).1.flash
  have hcall : Triple (fun s => Erasable s ∧ (f.peerRecord peer).keyPackageRef =
        (s.durable.peerRecord peer).keyPackageRef)
      (perform me (.unpair peer now))
      (fun _ s => Erased peer (f.peerRecord peer).keyPackageRef s.durable) (fun _ => True) :=
    .bind (unpair_erases _) fun _ => .pure fun _ => id
  have hpost := hcall faults ⟨f, []⟩ ⟨hrun, rfl⟩
  unfold run at hr ⊢
  cases hres : perform me (.unpair peer now) faults ⟨f, []⟩ with
  | mk out s =>
    rw [hres] at hpost hr
    cases hr
    exact hpost

section

def erasureIdentity : LeafIdentity := ⟨"d", fun _ => true, fun _ => true⟩

def erasureRoster : List Member := [⟨0, some "p", true⟩, ⟨1, some "d", true⟩]

def erasureFrame (content : LeafContent) : LeafMessage :=
  { id := "m", sender := "p", recipient := "d", timestamp := 100000, requiresAck := false,
    signature := .made (some "p") .fresh, content }

def pairing : List LeafOp :=
  [⟨.keyPackageFrame "p" 100 "r", fun _ => .done⟩,
    ⟨.handle (erasureFrame (.welcome (some ⟨some "p", "p", some ⟨"w", ["r"], some "p", 1,
      erasureRoster, true⟩⟩))) 100 "" .refused, fun _ => .done⟩]

def commitOp (trim : Fault) : LeafOp :=
  ⟨.handle (erasureFrame (.encrypted (some ⟨some "p", "p", true⟩))) 100 ""
    (.commit 0 erasureRoster), fun n => if n = 3 then trim else .done⟩

/-- The flash after a pairing and commits of `p`, then a new key package for it.
The trim of the fourth commit fails. -/
def committed (later : ℕ) : List LeafOp :=
  pairing ++ replicate 3 (commitOp .done) ++ [commitOp (.failed false)] ++
    replicate later (commitOp .done) ++ [⟨.keyPackageFrame "p" 101 "r2", fun _ => .done⟩]

end

theorem unpair_erases_the_pair_after_commits :
    Erased "p" ((runSteps (step erasureIdentity) .new (committed 2)).1.flash.peerRecord
      "p").keyPackageRef
      (run erasureIdentity (runSteps (step erasureIdentity) .new (committed 2)).1.flash
        ⟨.unpair "p" 102, fun _ => .done⟩).2.durable :=
  unpair_erases_the_pair erasureIdentity (committed 2) "p" 102 (fun _ => .done) ⟨[], []⟩
    (by decide +kernel) (by decide +kernel)

/-- After seventeen more it lies below the sweep: unpairing reports success with
the record on flash. -/
theorem unpair_misses_a_record :
    (run erasureIdentity (runSteps (step erasureIdentity) .new (committed 17)).1.flash
        ⟨.unpair "p" 102, fun _ => .done⟩).1 = .returned ⟨[], []⟩ ∧
      1 ∈ records (run erasureIdentity (runSteps (step erasureIdentity) .new
        (committed 17)).1.flash ⟨.unpair "p" 102, fun _ => .done⟩).2.durable "p" := by
  decide +kernel

end OfflineProtocol.LeafDevice
