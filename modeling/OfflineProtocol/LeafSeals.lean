import OfflineProtocol.LeafRuns

/-! No frame a leaf device hands out is sealed under a key and nonce that another
one used, and none carries another one's id, over any calls and any faults of the
flash, unless a Welcome is joined again. -/
namespace OfflineProtocol.LeafDevice
open KeyedTable Interruption EventTrace FlashOp List Preserves

def frameKey (frame : LeafFrame) : Option SealKey :=
  match frame.body with
  | .encrypted _ key => some key
  | _ => none

def keysOf (frames : List LeafFrame) : List SealKey := frames.filterMap frameKey

def PastKey (key : SealKey) (group : Group) : Prop :=
  key.epoch < group.epoch ∨ key.epoch = group.epoch ∧ key.generation < group.generation

/-- Each key was used once, and every group on flash is past those of its Welcome.
`joined` and what the call has written name every Welcome in use. -/
structure KeysSpent (keys : List SealKey) (joined : List MlsWelcome) (s : Part Flash FlashOp) :
    Prop where
  nodup : keys.Nodup
  past : ∀ p entry, get s.durable.states p = some entry → ∀ k ∈ keys,
    k.welcome = entry.group.welcome → PastKey k entry.group
  home : ∀ p entry, get s.durable.states p = some entry → entry.group.welcome.group = some p
  stated : ∀ p entry, get s.durable.states p = some entry →
    entry.group.welcome ∈ joined ++ written s.log
  known : ∀ k ∈ keys, k.welcome ∈ joined ++ written s.log

def draws (log : List (FlashOp × Fault)) : ℕ :=
  log.countP fun e => match e.1 with
    | .storeCounter _ => true
    | _ => false

/-- The numbers given out are at most the counter's, and distinct until it
saturates. `drawn` numbers were drawn before this call. -/
structure Numbered (numbers : List ℕ) (drawn : ℕ) (s : Part Flash FlashOp) : Prop where
  bound : s.durable.sendCounter.getD 0 ≤ u64Max
  drawn : s.durable.sendCounter.getD 0 ≤ drawn + draws s.log
  le : ∀ n ∈ numbers, n ≤ s.durable.sendCounter.getD 0
  nodup : s.durable.sendCounter.getD 0 < u64Max → numbers.Nodup

/-- What a device did before this call: the Welcomes it wrote a state of, and how
many numbers it drew. -/
structure LeafPast where
  joined : List MlsWelcome
  drawn : ℕ

structure Accounted (frames : List LeafFrame) (past : LeafPast) (s : Part Flash FlashOp) :
    Prop where
  keys : KeysSpent (keysOf frames) past.joined s
  numbers : Numbered (frames.map LeafFrame.counter) past.drawn s

inductive Neutral : FlashOp → Prop
  | storeEpoch (p : String) (n : ℕ) (w : MlsWelcome) : Neutral (.storeEpoch p n w)
  | storeHighWater (p : String) (n : ℕ) : Neutral (.storeHighWater p n)
  | trimEpoch (p : String) (n : ℕ) : Neutral (.trimEpoch p n)
  | forget {p : String} {op : FlashOp} (h : ForgetOp p op) : Neutral op
  | storePeer (p : String) (r : PeerRecord) : Neutral (.storePeer p r)
  | markReset (p : String) (r : PeerRecord) : Neutral (.markReset p r)
  | peerIndex {op : FlashOp} (h : PeerIndexOp op) : Neutral op

section
variable {keys : List SealKey} {joined : List MlsWelcome} {numbers : List ℕ} {drawn : ℕ}
  {past : LeafPast} {s : Part Flash FlashOp}

lemma written_append (a b) : written (a ++ b) = written a ++ written b :=
  filterMap_append

lemma mem_written_after {op fault} (h : w ∈ joined ++ written s.log) :
    w ∈ joined ++ written (s.after effect op fault).log := by
  rw [Part.after, written_append, ← append_assoc]
  exact mem_append_left _ h

lemma KeysSpent.mono (h : KeysSpent keys joined s)
    (hstates : ∀ p entry, get s'.durable.states p = some entry →
      get s.durable.states p = some entry)
    (hlog : ∀ w, w ∈ joined ++ written s.log → w ∈ joined ++ written s'.log) :
    KeysSpent keys joined s' where
  nodup := h.nodup
  past p entry hg := h.past p entry (hstates p entry hg)
  home p entry hg := h.home p entry (hstates p entry hg)
  stated p entry hg := hlog _ (h.stated p entry (hstates p entry hg))
  known k hk := hlog _ (h.known k hk)

lemma neutral_effect (h : Neutral op) : (op.effect f).sendCounter = f.sendCounter ∧ ∀ p entry,
      get (op.effect f).states p = some entry → get f.states p = some entry := by
  cases h with
  | peerIndex h => cases h; exact ⟨rfl, fun _ _ hg => hg⟩
  | forget h =>
    cases h with
    | record => exact ⟨rfl, fun _ _ hg => hg⟩
    | keyPackage h => cases h <;> exact ⟨rfl, fun _ _ hg => hg⟩
    | session h =>
      cases h with
      | state => exact ⟨rfl, fun _ _ hg => (of_get_erase hg).2⟩
      | _ => exact ⟨rfl, fun _ _ hg => hg⟩
  | _ => exact ⟨rfl, fun _ _ hg => hg⟩

lemma keysSpent_neutral : Keeps Neutral (KeysSpent keys joined) := by
  intro s op fault hop hs
  refine hs.mono (fun p entry hg => ?_) fun w hw => mem_written_after hw
  unfold Part.after at hg
  split_ifs at hg
  · exact (neutral_effect hop).2 p entry hg
  · exact hg

lemma draws_append (a b) : draws (a ++ b) = draws a + draws b :=
  countP_append

lemma draws_after {op fault} : draws s.log ≤ draws (s.after effect op fault).log := by
  rw [Part.after, draws_append]
  exact Nat.le_add_right _ _

lemma Numbered.same (h : Numbered numbers drawn s)
    (hc : s'.durable.sendCounter = s.durable.sendCounter) (hlog : draws s.log ≤ draws s'.log) :
    Numbered numbers drawn s' := by
  constructor
  · rw [hc]
    exact h.bound
  · rw [hc]
    exact h.drawn.trans (Nat.add_le_add_left hlog _)
  · rw [hc]
    exact h.le
  rw [hc]
  exact h.nodup

lemma numbered_neutral : Keeps Neutral (Numbered numbers drawn) := by
  intro s op fault hop hs
  apply hs.same _ draws_after
  unfold Part.after
  split_ifs
  · exact (neutral_effect hop).1
  · rfl

lemma KeysSpent.sublist (h : KeysSpent keys joined s)
    (hsub : keys'.Sublist keys) : KeysSpent keys' joined s where
  nodup := h.nodup.sublist hsub
  past p entry hg k hk := h.past p entry hg k (hsub.subset hk)
  home := h.home
  stated := h.stated
  known k hk := h.known k (hsub.subset hk)

lemma Numbered.sublist (h : Numbered numbers drawn s)
    (hsub : numbers'.Sublist numbers) : Numbered numbers' drawn s where
  bound := h.bound
  drawn := h.drawn
  le n hn := h.le n (hsub.subset hn)
  nodup hc := (h.nodup hc).sublist hsub

lemma Accounted.drop (h : Accounted (frames ++ more) past s) : Accounted frames past s where
  keys := h.keys.sublist ((sublist_append_left frames more).filterMap _)
  numbers := h.numbers.sublist ((sublist_append_left frames more).map _)

lemma accounted_neutral : Keeps Neutral (Accounted frames past) :=
  fun s op fault hop hs =>
    ⟨keysSpent_neutral s op fault hop hs.keys, numbered_neutral s op fault hop hs.numbers⟩

end

section
variable {keys : List SealKey} {joined : List MlsWelcome} {s : Part Flash FlashOp}
variable {p : String} {entry : StateEntry}

lemma get_states_after
    (h : get (s.after effect (.storeState p entry) fault).durable.states q = some e) :
    (q = p ∧ e = entry ∧ fault.applied) ∨ get s.durable.states q = some e := by
  unfold Part.after at h
  split_ifs at h with happlied
  · rcases of_get_insert h with ⟨hq, he⟩ | ⟨-, hins⟩
    · exact .inl ⟨hq, he, happlied⟩
    · exact .inr hins
  · exact .inr h

lemma mem_written_stored (h : fault.applied = true) : entry.group.welcome ∈
      joined ++ written (s.after effect (.storeState p entry) fault).log := by
  rw [Part.after, written_append]
  apply mem_append_right
  apply mem_append_right
  simp [written, h]

lemma KeysSpent.store (hs : KeysSpent keys joined s) (hhome : entry.group.welcome.group = some p)
    (hpast : ∀ k ∈ keys, k.welcome = entry.group.welcome → PastKey k entry.group) (fault) :
    KeysSpent keys joined (s.after effect (.storeState p entry) fault) where
  nodup := hs.nodup
  past q e hg k hk hw := by
    rcases get_states_after hg with ⟨rfl, rfl, -⟩ | hold
    · exact hpast k hk hw
    · exact hs.past q e hold k hk hw
  home q e hg := by
    rcases get_states_after hg with ⟨rfl, rfl, -⟩ | hold
    · exact hhome
    · exact hs.home q e hold
  stated q e hg := by
    rcases get_states_after hg with ⟨rfl, rfl, happlied⟩ | hold
    · exact mem_written_stored happlied
    · exact mem_written_after (hs.stated q e hold)
  known k hk := mem_written_after (hs.known k hk)

def Succeeds (group next : Group) : Prop :=
  next.welcome = group.welcome ∧ (group.epoch < next.epoch ∨
    group.epoch = next.epoch ∧ group.generation ≤ next.generation)

lemma PastKey.succeeds {next}
    (h : PastKey k group) (hn : Succeeds group next) : PastKey k next := by
  unfold PastKey at h ⊢
  rcases hn.2 with he | ⟨he, hg⟩ <;> omega

lemma KeysSpent.advance {next} (hs : KeysSpent keys joined s)
    (hl : Loaded p group s) (hn : Succeeds group next) {fault} :
    KeysSpent keys joined (s.after effect (.storeState p ⟨marker, next⟩) fault) := by
  obtain ⟨entry, hg, rfl⟩ := hl
  refine hs.store ?_ (fun k hk hw => ?_) fault
  · exact (congrArg MlsWelcome.group hn.1).trans (hs.home p entry hg)
  have hw' : k.welcome = entry.group.welcome := hw.trans hn.1
  exact (hs.past p entry hg k hk hw').succeeds hn

def nextKey (group : Group) : SealKey := ⟨group.welcome, group.epoch, group.generation⟩

def advanced (group : Group) : Group := { group with generation := group.generation + 1 }

lemma succeeds_advanced : Succeeds group (advanced group) :=
  ⟨rfl, .inr ⟨rfl, Nat.le_succ _⟩⟩

/-- Once the state past it is on flash, the next key counts as used. -/
lemma KeysSpent.spend (hs : KeysSpent keys joined s) (hl : Loaded p group s) :
    KeysSpent (keys ++ [nextKey group]) joined
      (s.after effect (.storeState p ⟨marker, advanced group⟩) .done) := by
  have hafter : KeysSpent keys joined
      (s.after effect (.storeState p ⟨marker, advanced group⟩) .done) :=
    hs.advance hl succeeds_advanced
  obtain ⟨entry, hg, rfl⟩ := hl
  -- The key is new: the group on flash is past every key used of its Welcome.
  have hfresh : nextKey entry.group ∉ keys := by
    intro hmem
    have hp := hs.past p entry hg _ hmem rfl
    simp only [PastKey, nextKey] at hp
    omega
  constructor
  · exact nodup_append.2 ⟨hs.nodup, nodup_singleton _, by
      intro a ha b hb
      rw [mem_singleton.1 hb]
      rintro rfl
      exact hfresh ha⟩
  · intro q e hge k hk hw
    rcases mem_append.1 hk with hk | hk
    · exact hafter.past q e hge k hk hw
    rw [mem_singleton.1 hk] at hw ⊢
    rcases get_states_after hge with ⟨-, rfl, -⟩ | hold
    · exact .inr ⟨rfl, Nat.lt_succ_self _⟩
    -- Another state of the same Welcome would be the same pair's.
    have hq : q = p := by
      have h1 := hs.home q e hold
      have h2 := hs.home p entry hg
      rw [← hw] at h1
      exact Option.some.inj (h1.symm.trans h2)
    subst hq
    have hsame : e = ⟨marker, advanced entry.group⟩ := by
      have hins : get (s.durable.states.insert q ⟨marker, advanced entry.group⟩) q = some e := hge
      rw [get_insert_self] at hins
      exact (Option.some.inj hins).symm
    rw [hsame]
    exact .inr ⟨rfl, Nat.lt_succ_self _⟩
  · exact hafter.home
  · exact hafter.stated
  · exact forall_mem_append.2 ⟨hafter.known,
      forall_mem_singleton.2 (mem_written_after (hs.stated p entry hg))⟩

lemma KeysSpent.join (hs : KeysSpent keys joined s)
    (hnew : welcome ∉ joined ++ written s.log) (hhome : welcome.group = some p) {fault} :
    KeysSpent keys joined (s.after effect
      (.storeState p ⟨marker, ⟨welcome, welcome.epoch, 0, welcome.roster⟩⟩) fault) := by
  refine hs.store hhome (fun k hk hw => ?_) fault
  have hknown := hs.known k hk
  rw [hw] at hknown
  exact absurd hknown hnew

end

section
variable {past : LeafPast}
variable (message : LeafMessage) (now : ℕ) (reference : String) (opened : Opened)

section
variable (recipient : String) {keys : List SealKey}
  {numbers : List ℕ}

lemma besideState_neutral (h : BesideState p op) : Neutral op := by
  cases h with
  | storeEpoch n w => exact .storeEpoch p n w
  | storeHighWater n => exact .storeHighWater p n
  | trimEpoch n => exact .trimEpoch p n
  | keyPackage h => exact .forget (p := p) (.keyPackage h)

lemma Numbered.draw {drawn} (h : Numbered numbers drawn s) :
    Numbered (numbers ++ [min (s.durable.sendCounter.getD 0 + 1) u64Max]) drawn (s.after effect
      (.storeCounter (min (s.durable.sendCounter.getD 0 + 1) u64Max)) .done) := by
  have hbound := h.bound
  constructor
  · exact min_le_right _ _
  · have hdrawn := h.drawn
    show min (s.durable.sendCounter.getD 0 + 1) u64Max ≤ drawn + draws (s.log ++ _)
    rw [draws_append]
    have hone : ∀ n, draws [(.storeCounter n, .done)] = 1 := fun _ => rfl
    rw [hone]
    omega
  · intro n hmem
    show n ≤ min (s.durable.sendCounter.getD 0 + 1) u64Max
    rcases mem_append.1 hmem with hold | hnew
    · have hle := h.le n hold
      omega
    · rw [mem_singleton.1 hnew]
  · intro hunsat
    have hlt : min (s.durable.sendCounter.getD 0 + 1) u64Max < u64Max := hunsat
    refine nodup_append.2 ⟨h.nodup (by omega), nodup_singleton _, ?_⟩
    intro a ha b hb
    rw [mem_singleton.1 hb]
    have hle := h.le a ha
    omega

def Ready (keys : List SealKey) (past : LeafPast) (numbers : List ℕ)
    (s : Part Flash FlashOp) : Prop :=
  KeysSpent keys past.joined s ∧ Numbered numbers past.drawn s

lemma ready_counter (hs : Ready keys past numbers s) : KeysSpent keys past.joined (s.after effect
      (.storeCounter (min (s.durable.sendCounter.getD 0 + 1) u64Max)) fault) ∧
    Numbered numbers past.drawn (s.after effect
      (.storeCounter (min (s.durable.sendCounter.getD 0 + 1) u64Max)) fault) := by
  constructor
  · refine hs.1.mono (fun p entry hg => ?_) fun w hw => mem_written_after hw
    unfold Part.after at hg
    split_ifs at hg <;> exact hg
  by_cases happlied : fault.applied
  · have hdraw := (hs.2.draw).sublist (sublist_append_left numbers _)
    apply hdraw.same
    · rw [Part.after_applied happlied]
      rfl
    · simp [Part.after, draws]
  · apply hs.2.same _ draws_after
    rw [Part.after_unapplied happlied]

lemma build_spec : Triple (Ready keys past numbers) (build me recipient body)
      (fun frame s => Ready keys past (numbers ++ [frame.counter]) s ∧ frame.body = body)
      (Ready keys past numbers) := by
  have hnext : Triple (Ready keys past numbers) nextCounter
      (fun n => Ready keys past (numbers ++ [n])) (Ready keys past numbers) := by
    refine .observe fun current => ?_
    have hstore : Triple
        (fun s => Ready keys past numbers s ∧ current = s.durable.sendCounter.getD 0)
        (onFlash (.storeCounter (min (current + 1) u64Max)))
        (fun _ => Ready keys past (numbers ++ [min (current + 1) u64Max]))
        (Ready keys past numbers) := by
      apply Triple.operate
      · rintro s ⟨hs, rfl⟩
        exact ⟨(ready_counter hs).1, hs.2.draw⟩
      rintro s fault ⟨hs, rfl⟩ -
      exact ready_counter hs
    exact .bind hstore fun _ => .pure fun _ => id
  refine .bind hnext fun counter => ?_
  split_ifs
  · exact .pure fun s hs => ⟨hs, rfl⟩
  · exact .raise fun s hs => ⟨hs.1, hs.2.sublist (sublist_append_left _ _)⟩

lemma build_plain (hbody : ∀ c k, body ≠ .encrypted c k) :
    Triple (Accounted frames past) (build me recipient body)
      (fun frame => Accounted (frames ++ [frame]) past) (Accounted frames past) := by
  have hbuild : Triple (Ready (keysOf frames) past (frames.map LeafFrame.counter))
      (build me recipient body) _ _ := build_spec recipient
  refine hbuild.mono (fun s hs => ⟨hs.keys, hs.numbers⟩) ?_ fun s hs => ⟨hs.1, hs.2⟩
  rintro frame s ⟨hs, hb⟩
  have hkey : keysOf (frames ++ [frame]) = keysOf frames := by
    have hnone : frameKey frame = none := by
      unfold frameKey
      rw [hb]
      cases body with
      | encrypted c k => exact absurd rfl (hbody c k)
      | keyPackage _ _ => rfl
      | sessionConfirmAck => rfl
      | acknowledge _ => rfl
    simp [keysOf, hnone]
  constructor
  · rw [hkey]
    exact hs.1
  · simpa using hs.2

lemma loaded_besideState :
    Keeps (BesideState peer) (fun s => Accounted frames past s ∧ Loaded peer group s) := by
  intro s op fault hop hs
  exact ⟨accounted_neutral s op fault (besideState_neutral hop) hs.1, hs.2.after hop.states fault⟩

lemma sealContent_spec : Triple (Accounted frames past) (sealContent me peer)
      (fun frame => Accounted (frames ++ [frame]) past) (Accounted frames past) := by
  refine .bind (loadGroup_spec me) fun group => ?_
  refine Triple.bind (Preserves.lift.within fun s hs => hs.1)
    fun _ => ?_
  set keys := keysOf frames ++ [nextKey group] with hkeys
  set numbers := frames.map LeafFrame.counter with hnumber
  have hback : ∀ s, Ready keys past numbers s → Accounted frames past s := fun s hs =>
    ⟨hs.1.sublist (sublist_append_left _ _), hs.2⟩
  have hwrite : Triple (fun s => Accounted frames past s ∧ Loaded peer group s)
      (writeToStorage peer (advanced group) [] [] none) (fun _ => Ready keys past numbers)
      (Accounted frames past) := by
    apply writeToStorage_beside loaded_besideState
    · exact fun s op fault hop hs => ⟨keysSpent_neutral s op fault (besideState_neutral hop) hs.1,
        numbered_neutral s op fault (besideState_neutral hop) hs.2⟩
    · rintro s marker ⟨hs, hl⟩
      exact ⟨hs.keys.spend hl, hs.numbers.same rfl draws_after⟩
    · rintro s marker fault ⟨hs, hl⟩
      refine ⟨hs.keys.advance hl succeeds_advanced, hs.numbers.same ?_ draws_after⟩
      unfold Part.after
      split_ifs <;> rfl
    · exact fun s hs => hs.1
    · exact hback
  refine .bind hwrite fun _ => ?_
  refine .bind (.read (Q := fun _ => Ready keys past numbers) fun s hs => hs) fun record => ?_
  refine (build_spec peer).mono (fun _ => id) ?_ hback
  rintro frame s ⟨hs, hb⟩
  have hkey : frameKey frame = some (nextKey group) := by
    unfold frameKey
    rw [hb]
    rfl
  constructor
  · have heq : keysOf (frames ++ [frame]) = keys := by simp [keysOf, hkey, hkeys]
    rw [heq]
    exact hs.1
  · simpa [hnumber] using hs.2

def Hands (frames : List LeafFrame) (past : LeafPast) (m : LeafM Handled) : Prop :=
  Triple (Accounted frames past) m
    (fun handled => Accounted (frames ++ handled.outbound) past) (Accounted frames past)

lemma hands_nothing : Hands frames past (pure ⟨[], events⟩ : LeafM Handled) :=
  .pure fun s hs => by rwa [append_nil]

lemma hands_raise : Hands frames past (raise e) := .raise fun _ => id

lemma hands {α : Type} {m : LeafM α} {f}
    (hm : Preserves (Accounted frames past) m) (hf : ∀ a, Hands frames past (f a)) :
    Hands frames past (m >>= f) :=
  .bind hm hf

lemma hands_frame
    (hm : Triple (Accounted frames past) m (fun frame => Accounted (frames ++ [frame]) past)
      (Accounted frames past)) :
    Hands frames past (do
      let frame ← m
      pure ⟨[frame], events⟩) :=
  .bind hm fun _ => .pure fun _ => id

lemma neutral_preserves (h : Neutral op) : Preserves (Accounted frames past) (onFlash op) :=
  onFlash_preserves accounted_neutral h

lemma keyPackageFrame_spec {peer now reference} :
    Triple (Accounted frames past) (keyPackageFrame me peer now reference)
      (fun frame => Accounted (frames ++ [frame]) past) (Accounted frames past) := by
  have hmint : Preserves (Accounted frames past) (mint reference now) :=
    insert_preserves (accounted_neutral.mono fun _ hop => .forget (p := peer) (.keyPackage hop))
  refine .bind hmint fun _ => ?_
  refine .bind (build_plain peer nofun) fun frame => ?_
  have hlater (m : LeafM Unit) (hm : Preserves (Accounted (frames ++ [frame]) past) m) :
      Triple (Accounted (frames ++ [frame]) past) m
        (fun _ => Accounted (frames ++ [frame]) past) (Accounted frames past) :=
    hm.within fun _ hs => hs.drop
  refine .bind (.read (Q := fun _ => Accounted (frames ++ [frame]) past)
    fun s hs => hs) fun record => ?_
  refine .bind (hlater _ (neutral_preserves (.storePeer _ _))) fun _ => ?_
  refine .bind (hlater _ (indexPeer_preserves
    (accounted_neutral.mono fun _ hop => .peerIndex hop))) fun _ => ?_
  exact .pure fun _ => id

lemma onReset_preserves :
    Preserves (Accounted frames past) (onReset me message payload signedUnder record) := by
  have hforg : Preserves (Accounted frames past) (forgetSession me message.sender) :=
    forgetSession_preserves me
      (accounted_neutral.mono fun _ hop => .forget (p := message.sender) (.session hop))
  unfold onReset
  split_ifs
  · exact .pure
  · refine .bind (neutral_preserves (.markReset _ _)) fun _ => ?_
    exact .bind hforg fun _ => .pure
  · exact .pure
  · exact .pure

lemma onKeyPackage_hands {body now reference} :
    Hands frames past (onKeyPackage me message body now reference) := by
  have hadms : Preserves (Accounted frames past) (admitPeer me message.sender) :=
    admitPeer_preserves me (accounted_neutral.mono fun _ hop => .peerIndex hop)
      fun v => forgetPeer_keeps me (accounted_neutral.mono fun _ hop => .forget (p := v) hop)
  refine hands Preserves.lift fun signedUnder => ?_
  cases body with
  | none => exact hands_raise
  | some payload =>
    simp only
    split_ifs
    · refine hands hadms fun _ => ?_
      refine hands Preserves.read fun held => ?_
      refine hands (onReset_preserves message) fun answer => ?_
      refine hands (neutral_preserves (.storePeer _ _)) fun _ => ?_
      split_ifs
      · exact hands_nothing
      · exact hands_frame keyPackageFrame_spec
    · exact hands_raise

def Unjoined (welcome : MlsWelcome) (joined : List MlsWelcome) (s : Part Flash FlashOp) : Prop :=
  welcome ∈ joined ++ written s.log → ∀ r ∈ welcome.references, get s.durable.keyPackages r = none

/-- A join finds a package the Welcome spends, so its Welcome is a new one. -/
lemma joinGroup_new (h : joinGroup f welcome = .ok (group, consumed)) :
    group = ⟨welcome, welcome.epoch, 0, welcome.roster⟩ ∧
      ∃ r ∈ welcome.references, (get f.keyPackages r).isSome := by
  unfold joinGroup at h
  split at h
  · rename_i reference hfind
    split_ifs at h
    cases h
    exact ⟨rfl, _, mem_of_find?_eq_some hfind, by simpa using find?_some hfind⟩
  · cases h

lemma writeJoined_spec (hhome : welcome.group = some peer) :
    Triple (fun s => Accounted frames past s ∧ welcome ∉ past.joined ++ written s.log)
      (writeToStorage peer ⟨welcome, welcome.epoch, 0, welcome.roster⟩ [] [] (some consumed))
      (fun _ => Accounted frames past) (Accounted frames past) := by
  have hquiet : ∀ op, BesideState peer op → ∀ s fault,
      written (Part.after effect s op fault).log = written s.log := by
    intro op hop s fault
    rw [Part.after, written_append]
    cases hop with
    | keyPackage h => cases h <;> exact append_nil _
    | storeEpoch n w => exact append_nil _
    | storeHighWater n => exact append_nil _
    | trimEpoch n => exact append_nil _
  have hstored : ∀ s marker fault,
      Accounted frames past s ∧ welcome ∉ past.joined ++ written s.log →
      Accounted frames past (s.after effect
        (.storeState peer ⟨marker, ⟨welcome, welcome.epoch, 0, welcome.roster⟩⟩) fault) := by
    rintro s marker fault ⟨hs, hnew⟩
    refine ⟨hs.keys.join hnew hhome, hs.numbers.same
      (Part.after_same Flash.sendCounter (fun _ => rfl)) draws_after⟩
  apply writeToStorage_beside
  · rintro s op fault hop ⟨hs, hnew⟩
    refine ⟨accounted_neutral s op fault (besideState_neutral hop) hs, ?_⟩
    rwa [hquiet op hop s fault]
  · exact accounted_neutral.mono fun op hop => besideState_neutral hop
  · exact fun s marker hs => hstored s marker .done hs
  · exact hstored
  · exact fun s hs => hs.1
  · exact fun s hs => hs

lemma onWelcome_hands {body now} :
    Triple (fun s => Accounted frames past s ∧ ∀ b ∈ body, ∀ w ∈ b.welcomeData,
        Unjoined w past.joined s) (onWelcome me message body now)
      (fun handled => Accounted (frames ++ handled.outbound) past) (Accounted frames past) := by
  refine onWelcome_spec me (fun s hs => hs.1) fun f welcome group consumed h => ?_
  obtain ⟨b, hb, hd⟩ := h.offered
  obtain ⟨hjoin, r, hr, hheld⟩ := joinGroup_new h.joined
  obtain rfl : group = _ := hjoin
  have hindex : Preserves (Accounted frames past) (indexPeer message.sender) :=
    indexPeer_preserves (accounted_neutral.mono fun _ hop => .peerIndex hop)
  refine .bind ((writeJoined_spec h.home).pre ?_) fun _ => ?_
  · rintro s ⟨⟨hs, hun⟩, rfl⟩
    refine ⟨hs, fun hmem => ?_⟩
    rw [hun b hb welcome hd hmem r hr] at hheld
    cases hheld
  · exact hands hindex fun _ => hands_frame sealContent_spec

lemma processIncoming_succeeds {next : Group} {opened}
    (h : processIncoming f peer group opened = .ok (next, inserts, updates)) :
    Succeeds group next := by
  have hsame : Succeeds group group := ⟨rfl, .inr ⟨rfl, Nat.le_refl _⟩⟩
  cases opened with
  | refused => cases h
  | other sealer =>
    cases h
    exact hsame
  | application sender text prior =>
    cases prior with
    | none =>
      cases h
      exact hsame
    | some prior =>
      simp only [processIncoming] at h
      split_ifs at h
      cases h
      exact hsame
  | commit committer roster =>
    unfold processIncoming at h
    split_ifs at h
    cases h
    exact ⟨rfl, .inl (Nat.lt_succ_self _)⟩

end

lemma writeOpened_spec {next} (hn : Succeeds group next) :
    Triple (fun s => Accounted frames past s ∧ Loaded peer group s)
      (writeToStorage peer next inserts updates none)
      (fun _ => Accounted frames past) (Accounted frames past) := by
  have hstored : ∀ s marker fault, Accounted frames past s ∧ Loaded peer group s →
      Accounted frames past (s.after effect (.storeState peer ⟨marker, next⟩) fault) := by
    rintro s marker fault ⟨hs, hl⟩
    refine ⟨hs.keys.advance hl hn, hs.numbers.same
      (Part.after_same Flash.sendCounter (fun _ => rfl)) draws_after⟩
  apply writeToStorage_beside loaded_besideState
  · exact accounted_neutral.mono fun op hop => besideState_neutral hop
  · exact fun s marker hs => hstored s marker .done hs
  · exact hstored
  · exact fun s hs => hs.1
  · exact fun s hs => hs

lemma onEncrypted_hands {body}
    {opened} : Hands frames past (onEncrypted me message body opened) := by
  refine onEncrypted_spec me body opened (fun _ => id) fun f group next inserts updates h => ?_
  refine .bind ((writeOpened_spec (processIncoming_succeeds
    h.processed)).pre (fun _ hs => hs.1)) fun _ => ?_
  exact hands Preserves.lift fun _ => hands_nothing

lemma onProbe_hands : Hands frames past (onProbe me message now) := by
  refine hands Preserves.lift fun _ => ?_
  refine hands Preserves.lift fun _ => ?_
  refine hands Preserves.read fun entry => ?_
  cases entry with
  | none => exact hands_nothing
  | some entry =>
    refine hands Preserves.lift fun _ => ?_
    exact hands_frame (build_plain _ nofun)

lemma acknowledgeFrame_spec : Triple (Accounted frames past) (acknowledgeFrame me message)
      (fun frame => Accounted (frames ++ [frame]) past) (Accounted frames past) :=
  build_plain _ nofun

lemma acknowledge_spec : Triple (Accounted frames past) (acknowledge me message)
      (fun answer => Accounted (frames ++ answer.toList) past) (Accounted frames past) := by
  have hnone : Triple (Accounted frames past) (pure none : LeafM (Option LeafFrame))
      (fun answer => Accounted (frames ++ answer.toList) past) (Accounted frames past) :=
    .pure fun s hs => by rwa [Option.toList_none, append_nil]
  unfold acknowledge
  split_ifs
  · refine Triple.bind Preserves.read fun known => ?_
    cases known with
    | none => exact hnone
    | some record =>
      refine .bind (acknowledgeFrame_spec message) fun ack => ?_
      refine .bind ((neutral_preserves (.storePeer _ _)).within fun s hs => hs.drop) fun _ => ?_
      exact .pure fun s hs => hs
  · exact hnone

lemma dispatch_hands :
    Triple (fun s => Accounted frames past s ∧ ∀ w ∈ offered message, Unjoined w past.joined s)
      (dispatch me message now reference opened)
      (fun r => Accounted (frames ++ r.1.outbound) past) (Accounted frames past) := by
  have hplain (m) (hm : Hands frames past m) (proven : Bool) :
      Triple (fun s => Accounted frames past s ∧ ∀ w ∈ offered message, Unjoined w past.joined s)
        (do
          let handled ← m
          pure (handled, proven)) (fun r => Accounted (frames ++ r.1.outbound) past)
        (Accounted frames past) :=
    .bind (hm.pre (fun s hs => hs.1)) fun handled => .pure fun s hs => hs
  unfold dispatch
  cases hc : message.content with
  | keyPackage body => exact hplain _ (onKeyPackage_hands message) true
  | welcome body =>
    refine .bind ((onWelcome_hands message).pre fun s hs => ⟨hs.1, ?_⟩)
      fun handled => .pure fun s hs => hs
    rintro b rfl w hw
    exact hs.2 w (by rw [offered, hc]; exact hw)
  | encrypted body => exact hplain _ (onEncrypted_hands message) true
  | sessionConfirmProbe => exact hplain _ (onProbe_hands message now) true
  | sessionConfirmAck => exact .pure fun s hs => by rw [ignored, append_nil]; exact hs.1
  | unprefixed => exact .pure fun s hs => by rw [ignored, append_nil]; exact hs.1

lemma handle_hands :
    Triple (fun s => Accounted frames past s ∧ ∀ w ∈ offered message, Unjoined w past.joined s)
      (handle me message now reference opened)
      (fun handled => Accounted (frames ++ handled.outbound) past) (Accounted frames past) := by
  refine Triple.bind (Preserves.read.within fun s hs => hs.1) fun f => ?_
  split_ifs
  · exact .pure fun s hs => by rw [ignored, append_nil]; exact hs.1
  · exact (hands_frame (acknowledgeFrame_spec message)).pre fun s hs => hs.1
  refine .bind (dispatch_hands message now reference opened) fun r => ?_
  obtain ⟨handled, proven⟩ := r
  cases proven with
  | false => exact .pure fun s hs => hs
  | true =>
    -- What the acknowledgement adds is accounted for, or it is not there.
    have hanswer : Triple (Accounted (frames ++ handled.outbound) past)
        (attempt (acknowledge me message)) (fun answer s =>
          answer.casesOn (motive := fun _ => Prop)
            (fun _ => Accounted (frames ++ handled.outbound) past s)
            fun answer => Accounted (frames ++ handled.outbound ++ answer.toList) past s)
        (Accounted (frames ++ handled.outbound) past) :=
      .attempt (acknowledge_spec message) fun e s hs => hs
    refine .bind (hanswer.within fun s hs => hs.drop) fun answer => ?_
    rcases answer with e | (_ | ack)
    · exact .pure fun s hs => hs
    · exact .pure fun s hs => by simpa using hs
    · exact .pure fun s hs => by rwa [← append_assoc]

lemma unpair_preserves (peer) : Preserves (Accounted frames past) (unpair me peer) := by
  have hforg : Preserves (Accounted frames past) (forgetPeer me peer) :=
    forgetPeer_keeps me (accounted_neutral.mono fun _ hop => .forget (p := peer) hop)
  refine .bind hforg fun _ => ?_
  refine .bind .read fun index => ?_
  split_ifs
  · exact neutral_preserves (.peerIndex (.store _))
  · exact .pure

lemma perform_hands (me call) :
    Triple (fun s => Accounted frames past s ∧ ∀ w ∈ call.offered, Unjoined w past.joined s)
      (perform me call) (fun handled => Accounted (frames ++ handled.outbound) past)
      (Accounted frames past) := by
  have hplain (m) (hm : Hands frames past m) :
      Triple (fun s => Accounted frames past s ∧ ∀ w ∈ call.offered, Unjoined w past.joined s) m
        (fun handled => Accounted (frames ++ handled.outbound) past) (Accounted frames past) :=
    hm.pre fun s hs => hs.1
  cases call with
  | keyPackageFrame peer now reference => exact hplain _ (hands_frame keyPackageFrame_spec)
  | sealContent peer now => exact hplain _ (hands_frame sealContent_spec)
  | handle message now reference opened => exact handle_hands message now reference opened
  | unpair peer now =>
    exact hplain _ (hands (unpair_preserves peer) fun _ => hands_nothing)

end

/-- A Welcome this device joined before is not offered again while a key package
it names is still held. -/
def OfferedOnce (w : LeafWorld) (op : LeafOp) : Prop :=
  ∀ welcome ∈ op.call.offered, welcome ∈ w.joined →
    ∀ r ∈ welcome.references, get w.flash.keyPackages r = none

instance (w : LeafWorld) (op : LeafOp) : Decidable (OfferedOnce w op) := by
  dsimp only [OfferedOnce]
  infer_instance

def handed (reports : List LeafReport) : List LeafFrame := reports.flatMap LeafReport.handed

def RunAccounted (w : LeafWorld) (reports : List LeafReport) : Prop :=
  Accounted (handed reports) ⟨w.joined, draws (operations reports)⟩ ⟨w.flash, []⟩

lemma Accounted.settle (h : Accounted frames ⟨joined, drawn⟩ s) :
    Accounted frames ⟨joined ++ written s.log, drawn + draws s.log⟩ ⟨s.durable, []⟩ where
  keys :=
    { nodup := h.keys.nodup
      past := h.keys.past
      home := h.keys.home
      stated := fun p entry hg => mem_append_left _ (h.keys.stated p entry hg)
      known := fun k hk => mem_append_left _ (h.keys.known k hk) }
  numbers := ⟨h.numbers.bound, h.numbers.drawn, h.numbers.le, h.numbers.nodup⟩

lemma runAccounted_step (me w op) (past) (h : RunAccounted w past) (hc : OfferedOnce w op) :
    RunAccounted (step me w op).1 (past ++ (step me w op).2) := by
  have hready : Accounted (handed past) ⟨w.joined, draws (operations past)⟩ ⟨w.flash, []⟩ ∧
      ∀ welcome ∈ op.call.offered, Unjoined welcome w.joined ⟨w.flash, []⟩ := by
    refine ⟨h, fun welcome hw hmem => hc welcome hw ?_⟩
    simpa [written] using hmem
  have hcall := perform_hands me op.call op.faults ⟨w.flash, []⟩ hready
  unfold RunAccounted step run handed operations
  simp only [flatMap_append, flatMap_cons, flatMap_nil, append_nil, draws_append]
  cases hr : perform me op.call op.faults ⟨w.flash, []⟩ with
  | mk out s =>
    rw [hr] at hcall
    cases out with
    | returned handled => exact hcall.settle
    | raised e =>
      simp only [LeafReport.handed, append_nil]
      exact hcall.settle
    | cut =>
      simp only [LeafReport.handed, append_nil]
      exact hcall.settle

lemma runAccounted_new : RunAccounted .new [] := by
  have hnone : ∀ p entry, get LeafWorld.new.flash.states p ≠ some entry :=
    nofun
  constructor
  · exact ⟨nodup_nil, fun p e hg => absurd hg (hnone p e), fun p e hg => absurd hg (hnone p e),
      fun p e hg => absurd hg (hnone p e), nofun⟩
  exact ⟨Nat.zero_le _, Nat.zero_le _, nofun, fun _ => nodup_nil⟩

/-- Over any calls, faults and power cuts, no two frames handed out are sealed
under one key and nonce, and none carries another's number while fewer were drawn
than the counter holds. -/
theorem no_seal_key_used_twice (me : LeafIdentity) (ops : List LeafOp)
    (hc : AlongSteps (step me) OfferedOnce .new ops) :
    (keysOf (handed (runSteps (step me) .new ops).2)).Nodup ∧
      (draws (operations (runSteps (step me) .new ops).2) < u64Max →
        ((handed (runSteps (step me) .new ops).2).map LeafFrame.counter).Nodup) := by
  have h := runSteps_invariant (I := RunAccounted) (runAccounted_step me) hc runAccounted_new
  rw [nil_append] at h
  refine ⟨h.keys.nodup, fun hd => h.numbers.nodup ?_⟩
  exact lt_of_le_of_lt h.numbers.drawn hd

section

def sampleIdentity : LeafIdentity := ⟨"d", fun _ => true, fun _ => true⟩

def sampleWelcome : MlsWelcome :=
  ⟨"w", ["r"], some "p", 1, [⟨0, some "p", true⟩, ⟨1, some "d", true⟩], true⟩

def sampleOffer : LeafMessage :=
  { id := "m", sender := "p", recipient := "d", timestamp := 100000, requiresAck := false,
    signature := .made (some "p") .fresh,
    content := .welcome (some ⟨some "p", "p", some sampleWelcome⟩) }

/-- Pairing with `p`, one sealed frame, the Welcome again, and one more frame.
`fault` ends the delete of the key package that the join consumed. -/
def sampleRun (fault : Fault) : List LeafOp :=
  [⟨.keyPackageFrame "p" 100 "r", fun _ => .done⟩,
    ⟨.handle sampleOffer 100 "" .refused, fun n => if n = 1 then fault else .done⟩,
    ⟨.sealContent "p" 101, fun _ => .done⟩,
    ⟨.handle sampleOffer 102 "" .refused, fun _ => .done⟩,
    ⟨.sealContent "p" 103, fun _ => .done⟩]

end

theorem no_seal_key_used_twice_paired :
    (keysOf (handed (runSteps (step sampleIdentity) .new (sampleRun .done)).2)).Nodup ∧
      (keysOf (handed (runSteps (step sampleIdentity) .new (sampleRun .done)).2)).length = 3 :=
  ⟨(no_seal_key_used_twice sampleIdentity (sampleRun .done) (by decide +kernel)).1,
    by decide +kernel⟩

/-- The delete of the consumed key package fails, so the Welcome joins once more
and its first key seals a second frame. -/
theorem seal_key_used_after_rejoin :
    ¬(keysOf (handed (runSteps (step sampleIdentity) .new (sampleRun (.failed false))).2)).Nodup := by
  decide +kernel

end OfflineProtocol.LeafDevice
