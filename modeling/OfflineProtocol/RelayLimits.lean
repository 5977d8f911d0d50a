import OfflineProtocol.RelayGovernor

/-! What bounds a forward: the hop budget along a path of forwarders, the
standing a device earns by forwarding, and the neighbours a frame is handed to. -/
namespace OfflineProtocol.MeshRelayGovernor
open KeyedTable List
variable {F : Type*} {g : MeshRelayGovernor F}

def hopCeiling (g : MeshRelayGovernor F) (degree : ℕ) : UInt8 :=
  if g.config.denseDegree ≤ degree then g.config.denseMaxTtl else g.config.maxTtl

/-- One forwarding step: who took it, with how many neighbours, and the copy. -/
structure Hop (F : Type*) where
  forwarder : MeshRelayGovernor F
  degree : ℕ
  copy : Message

/-- The steps a frame takes along a path, each forwarder taking up the copy the
one before it produced, to the first that has no hop budget for it. -/
def carriedAlong : Message → List (MeshRelayGovernor F × ℕ) → List (Hop F)
  | _, [] => []
  | message, (g, degree) :: path =>
    match g.prepareHop message degree with
    | none => []
    | some copy => ⟨g, degree, copy⟩ :: carriedAlong copy path

lemma decrementTtl_spec (h : Message.decrementTtl ttl = some remaining) :
    remaining.toNat + 1 = ttl.toNat ∧ 0 < remaining.toNat := by
  unfold Message.decrementTtl at h
  split at h
  · rename_i hlive
    cases h
    have hone : 1 < ttl.toNat := hlive
    rw [UInt8.toNat_sub_of_le _ _ hone.le]
    change ttl.toNat - 1 + 1 = ttl.toNat ∧ 0 < ttl.toNat - 1
    omega
  · cases h

lemma prepareHop_spec (h : g.prepareHop message degree = some copy) :
    copy.ttl.toNat + 1 = min message.ttl.toNat (g.hopCeiling degree).toNat ∧
      0 < copy.ttl.toNat ∧ copy.hopCount.toNat = message.hopCount.toNat + 1 ∧
      message.hopCount.toNat < 16 ∧ custodyMetaKey ∉ copy.metadata := by
  unfold prepareHop at h
  split at h
  · cases h
  rename_i hhops
  dsimp only at h
  split at h
  · cases h
  rename_i remaining hspent
  have hspent := decrementTtl_spec hspent
  have hmin : (min message.ttl (g.hopCeiling degree)).toNat =
      min message.ttl.toNat (g.hopCeiling degree).toNat := by
    change (if message.ttl ≤ g.hopCeiling degree then message.ttl
      else g.hopCeiling degree).toNat = _
    split_ifs with hle
    · exact (min_eq_left hle).symm
    · exact (min_eq_right (Nat.lt_of_not_le hle).le).symm
  have hhops : message.hopCount.toNat < 16 := Nat.lt_of_not_le hhops
  cases h
  simp only [Message.incrementHop, if_pos (show message.hopCount.toNat < 255 by omega)]
  refine ⟨hmin ▸ hspent.1, hspent.2, ?_, hhops, by simp⟩
  rw [UInt8.toNat_add]
  change (message.hopCount.toNat + 1) % 256 = _
  omega

lemma carriedAlong_spends (message : Message) (path : List (MeshRelayGovernor F × ℕ)) :
    IsChain (fun before after =>
        after.ttl < before.ttl ∧ before.hopCount < after.hopCount)
      (message :: (carriedAlong message path).map (·.copy)) ∧
    (carriedAlong message path).length ≤ min (message.ttl.toNat - 1) (16 - message.hopCount.toNat) ∧
    ∀ hop ∈ carriedAlong message path, hop.copy.ttl < hop.forwarder.hopCeiling hop.degree ∧
      custodyMetaKey ∉ hop.copy.metadata := by
  induction path generalizing message with
  | nil => simp [carriedAlong]
  | cons forwarder path ih =>
    unfold carriedAlong
    split
    · simp
    rename_i copy hcopy
    obtain ⟨httl, hlive, hhops, hroom, hkey⟩ := prepareHop_spec hcopy
    obtain ⟨hchain, hlength, hhop⟩ := ih copy
    have hspent : copy.ttl < message.ttl ∧ message.hopCount < copy.hopCount := by
      simp only [UInt8.lt_iff_toNat_lt]
      omega
    have hceiling : copy.ttl < forwarder.1.hopCeiling forwarder.2 :=
      UInt8.lt_iff_toNat_lt.2 (by omega)
    refine ⟨.cons_cons hspent hchain, ?_, forall_mem_cons.2 ⟨⟨hceiling, hkey⟩, hhop⟩⟩
    rw [length_cons]
    omega

/-- Along every path of forwarders the budget of a frame is spent, whatever the
frame claims and however each device is configured. -/
theorem hop_budget_along_path (message : Message) (g : MeshRelayGovernor F) (degree : ℕ)
    (path : List (MeshRelayGovernor F × ℕ)) :
    let hops := carriedAlong message ((g, degree) :: path)
    IsChain (fun before after : Message =>
        after.ttl < before.ttl ∧ before.hopCount < after.hopCount) (message :: hops.map (·.copy)) ∧
    hops.length ≤ min (min message.ttl.toNat (g.hopCeiling degree).toNat - 1)
      (16 - message.hopCount.toNat) ∧
    ∀ hop ∈ hops, hop.copy.ttl < hop.forwarder.hopCeiling hop.degree ∧
      custodyMetaKey ∉ hop.copy.metadata := by
  intro hops
  obtain ⟨hchain, -, hhop⟩ := carriedAlong_spends message ((g, degree) :: path)
  refine ⟨hchain, ?_, hhop⟩
  -- the first forwarder's ceiling binds every copy after its own
  dsimp only [hops]
  unfold carriedAlong
  split
  · exact Nat.zero_le _
  rename_i copy hcopy
  have hspent := prepareHop_spec hcopy
  have hrest := (carriedAlong_spends copy path).2.1
  rw [length_cons]
  omega

inductive ActivityCall
  | recordForwarded
  | forceInactive
  | observeActivity (now : ℕ)

/-- A change of standing as the caller learns of it. -/
inductive StandingChange
  | reported (activity : RelayActivity)
  | forced
deriving DecidableEq

def activityStep (g : MeshRelayGovernor F) :
    ActivityCall → MeshRelayGovernor F × Option StandingChange
  | .recordForwarded => (g.recordForwarded, none)
  | .forceInactive => (g.forceInactive.1, if g.forceInactive.2 then some .forced else none)
  | .observeActivity now => ((g.observeActivity now).1, (g.observeActivity now).2.map .reported)

/-- The windows as the calls alone make them, with the frames carried in each:
the open one, and the completed ones, latest first. -/
structure WindowLedger where
  startedAt : ℕ
  carried : ℕ
  completed : List ℕ
deriving DecidableEq

def WindowLedger.note (ledger : WindowLedger) (width : ℕ) : ActivityCall → WindowLedger
  | .recordForwarded => { ledger with carried := ledger.carried + 1 }
  | .forceInactive => ledger
  | .observeActivity now =>
    if now - ledger.startedAt < width then ledger
    else ⟨now, 0, ledger.carried :: ledger.completed⟩

/-- The changes a sequence of calls reports, each with the ledger before and after
its call. -/
def standingRun : MeshRelayGovernor F → WindowLedger → List ActivityCall →
    List (StandingChange × WindowLedger × WindowLedger)
  | _, _, [] => []
  | g, ledger, call :: calls =>
    let after := ledger.note g.config.activityWindow call
    (g.activityStep call).2.toList.map (·, ledger, after) ++
      standingRun (g.activityStep call).1 after calls

/-- The changes alternate, beginning with `began` at a device without standing. -/
def Alternate : Bool → List StandingChange → Prop
  | _, [] => True
  | held, .reported (.began _) :: changes => held = false ∧ Alternate true changes
  | held, _ :: changes => held = true ∧ Alternate false changes

/-- What has to lie behind a change: the call closes a window, and it is a busy
one, or the last of enough windows in a row that each carried as `idle` says. -/
def Accounted (config : MeshRelayConfig F) (idle : ℕ → Prop) :
    StandingChange × WindowLedger × WindowLedger → Prop
  | (.reported (.began _), before, after) =>
      after.completed = before.carried :: before.completed ∧
        max 1 config.activityMinForwards ≤ before.carried
  | (.reported .ceased, before, after) =>
      after.completed = before.carried :: before.completed ∧ ∃ quiet earlier,
        after.completed = quiet ++ earlier ∧ quiet.length = max 1 config.activityIdleWindows ∧
          ∀ carried ∈ quiet, idle carried
  | (.forced, _) => True

/-- Every window that ends below the threshold, while the device has standing,
carried as `idle` says. -/
def IdleAre (idle : ℕ → Prop) : MeshRelayGovernor F → List ActivityCall → Prop
  | _, [] => True
  | g, call :: calls =>
    (∀ now, call = .observeActivity now → g.activeRelay →
      g.config.activityWindow ≤ now - g.windowStartedAt →
      g.windowForwards < max g.config.activityMinForwards 1 → idle g.windowForwards) ∧
    IdleAre idle (g.activityStep call).1 calls

lemma idleAre_any (calls : List ActivityCall) (g : MeshRelayGovernor F) :
    IdleAre (fun _ => True) g calls := by
  induction calls generalizing g with
  | nil => trivial
  | cons call calls ih => exact ⟨fun _ _ _ _ _ => trivial, ih _⟩

lemma alternate_run (g : MeshRelayGovernor F) (ledger : WindowLedger)
    (calls : List ActivityCall) :
    Alternate g.activeRelay ((standingRun g ledger calls).map (·.1)) := by
  induction calls generalizing g ledger with
  | nil => trivial
  | cons call calls ih =>
    have hrest := ih (g.activityStep call).1 (ledger.note g.config.activityWindow call)
    simp only [standingRun, map_append, map_map]
    cases call with
    | recordForwarded => exact hrest
    | forceInactive =>
      cases hheld : g.activeRelay <;> simp_all [activityStep, forceInactive, Alternate]
    | observeActivity now =>
      simp only [activityStep, observeActivity] at hrest ⊢
      split_ifs at hrest ⊢ <;> simp_all [Alternate]

/-- The governor's counters against the ledger. A forced end of the standing
drops frames of the open window from the count, never from the ledger. -/
structure Tallied (idle : ℕ → Prop) (g : MeshRelayGovernor F) (ledger : WindowLedger) : Prop where
  startedAt : g.windowStartedAt = ledger.startedAt
  counted : g.windowForwards ≤ ledger.carried
  held : g.activeRelay → g.windowForwards = ledger.carried ∧ ∃ quiet earlier,
    ledger.completed = quiet ++ earlier ∧ quiet.length = g.idleWindows ∧
      ∀ carried ∈ quiet, idle carried

lemma observeActivity_tallied (h : Tallied idle g ledger) {now : ℕ}
    (hidle : g.activeRelay → g.config.activityWindow ≤ now - g.windowStartedAt →
      g.windowForwards < max g.config.activityMinForwards 1 → idle g.windowForwards) :
    let after := ledger.note g.config.activityWindow (.observeActivity now)
    Tallied idle (g.observeActivity now).1 after ∧
      ∀ activity ∈ (g.observeActivity now).2,
        Accounted g.config idle (.reported activity, ledger, after) := by
  simp only [WindowLedger.note, observeActivity, ← h.startedAt]
  by_cases hopen : now - g.windowStartedAt < g.config.activityWindow
  · simp only [if_pos hopen]
    exact ⟨h, nofun⟩
  simp only [if_neg hopen]
  split_ifs with hbusy hheld hheld hend
  · exact ⟨⟨rfl, le_rfl, fun _ => ⟨rfl, [], _, rfl, rfl, nofun⟩⟩, nofun⟩
  · refine ⟨⟨rfl, le_rfl, fun _ => ⟨rfl, [], _, rfl, rfl, nofun⟩⟩, ?_⟩
    intro activity hactivity
    cases hactivity
    exact ⟨rfl, (max_comm _ _).le.trans (hbusy.trans h.counted)⟩
  · exact ⟨⟨rfl, le_rfl, fun hactive => by simp_all⟩, nofun⟩
  all_goals
    have hactive : g.activeRelay = true := by simpa using hheld
    obtain ⟨hcarried, quiet, earlier, hcompleted, hlength, hquiet⟩ := h.held hactive
    -- one more window below the threshold goes in front of the quiet ones
    have hmore : ∀ carried ∈ ledger.carried :: quiet, idle carried := by
      rw [← hcarried]
      exact forall_mem_cons.2
        ⟨hidle hactive (Nat.le_of_not_lt hopen) (Nat.lt_of_not_le hbusy), hquiet⟩
    rw [hcompleted]
  · refine ⟨⟨rfl, le_rfl, nofun⟩, ?_⟩
    intro activity hactivity
    cases hactivity
    let n := max 1 g.config.activityIdleWindows
    refine ⟨congrArg _ hcompleted.symm, (ledger.carried :: quiet).take n,
      (ledger.carried :: quiet).drop n ++ earlier, ?_, ?_, ?_⟩
    · rw [← append_assoc, take_append_drop]
      rfl
    · rw [length_take, length_cons, hlength]
      exact min_eq_left ((max_comm _ _).le.trans hend)
    · exact fun carried hmem => hmore carried (mem_of_mem_take hmem)
  · exact ⟨⟨rfl, le_rfl, fun _ => ⟨rfl, _ :: quiet, _, rfl, congrArg (· + 1) hlength, hmore⟩⟩, nofun⟩

lemma activityStep_tallied (h : Tallied idle g ledger) (hidle : IdleAre idle g (call :: calls)) :
    let after := ledger.note g.config.activityWindow call
    (g.activityStep call).1.config = g.config ∧ Tallied idle (g.activityStep call).1 after ∧
      ∀ change ∈ (g.activityStep call).2, Accounted g.config idle (change, ledger, after) := by
  cases call with
  | recordForwarded =>
    refine ⟨rfl, ⟨h.startedAt, Nat.succ_le_succ h.counted, fun hheld => ?_⟩, nofun⟩
    obtain ⟨hcarried, hquiet⟩ := h.held hheld
    exact ⟨congrArg (· + 1) hcarried, hquiet⟩
  | forceInactive =>
    refine ⟨rfl, ⟨h.startedAt, Nat.zero_le _, nofun⟩, ?_⟩
    intro change hchange
    unfold activityStep at hchange
    split_ifs at hchange <;> cases hchange
    trivial
  | observeActivity now =>
    obtain ⟨hkept, hchanges⟩ := observeActivity_tallied h (hidle.1 now rfl)
    refine ⟨?_, hkept, ?_⟩
    · simp only [activityStep, observeActivity]
      split_ifs <;> rfl
    · intro change hchange
      obtain ⟨activity, hactivity, rfl⟩ := Option.mem_map.1 hchange
      exact hchanges activity hactivity

lemma standingRun_accounted (calls : List ActivityCall) {g : MeshRelayGovernor F}
    (h : Tallied idle g ledger) (hidle : IdleAre idle g calls) :
    ∀ change ∈ standingRun g ledger calls, Accounted g.config idle change := by
  induction calls generalizing g ledger with
  | nil => nofun
  | cons call calls ih =>
    obtain ⟨hconfig, hkept, hchanges⟩ := activityStep_tallied h hidle
    intro change hchange
    rcases mem_append.1 hchange with hnow | hlater
    · obtain ⟨reported, hreported, rfl⟩ := mem_map.1 hnow
      exact hchanges reported (Option.mem_toList.1 hreported)
    · exact hconfig ▸ ih hkept hidle.2 change hlater

/-- Standing follows what was carried: the changes alternate, it begins at the end
of a busy window only, and where no window that ends below the threshold carried
anything, it ceases only after as many empty windows in a row as configured. -/
theorem standing_follows_carrying [AirArith F] (localId : String) (config : MeshRelayConfig F)
    (start : ℕ) (calls : List ActivityCall) :
    let history := standingRun (withConfig localId config start) ⟨start, 0, []⟩ calls
    Alternate false (history.map (·.1)) ∧
    (∀ change ∈ history, Accounted config (fun _ => True) change) ∧
    (IdleAre (· = 0) (withConfig localId config start) calls →
      ∀ change ∈ history, Accounted config (· = 0) change) := by
  intro history
  have hstart (idle) : Tallied idle (withConfig localId config start) ⟨start, 0, []⟩ :=
    ⟨rfl, le_rfl, nofun⟩
  exact ⟨alternate_run (withConfig localId config start) _ calls,
    standingRun_accounted calls (hstart _) (idleAre_any calls _),
    standingRun_accounted calls (hstart _)⟩

/-- Two windows that carried one frame each end the standing of a device with
the default configuration. -/
theorem standing_ceases_while_carrying :
    let calls : List ActivityCall := [.recordForwarded, .recordForwarded, .recordForwarded,
      .observeActivity 60000, .recordForwarded, .observeActivity 120000, .recordForwarded,
      .observeActivity 180000]
    ¬∀ change ∈ standingRun (withConfig "a" (.default : MeshRelayConfig ℚ) 0) ⟨0, 0, []⟩ calls,
      Accounted (.default : MeshRelayConfig ℚ) (· = 0) change := by
  intro calls hclaim
  obtain ⟨-, quiet, earlier, hcompleted, hlength, hquiet⟩ :=
    hclaim (.reported .ceased, ⟨120000, 1, [1, 3]⟩, ⟨180000, 0, [1, 1, 3]⟩) (by decide)
  cases quiet with
  | nil => cases hlength
  | cons carried quiet =>
    have hfirst : 1 = carried := (cons.inj hcompleted).1
    have hzero := hquiet carried (by simp)
    omega

lemma splitLeaders_perm (carriers : List TransportType) (links : List MeshNeighbor) :
    ((splitLeaders carriers links).1 ++ (splitLeaders carriers links).2).Perm links ∧
      (splitLeaders carriers links).2.Sublist links := by
  induction links generalizing carriers with
  | nil => exact ⟨.refl _, .refl _⟩
  | cons n links ih =>
    unfold splitLeaders
    split_ifs
    · exact ⟨perm_middle.trans ((ih carriers).1.cons n), (ih carriers).2.cons_cons n⟩
    · exact ⟨(ih _).1.cons n, (ih _).2.cons n⟩

lemma splitLeaders_fresh (carriers : List TransportType) (links : List MeshNeighbor) :
    (∀ n ∈ (splitLeaders carriers links).1, n.transport ∉ carriers) ∧
      ((splitLeaders carriers links).1.map (·.transport)).Nodup := by
  induction links generalizing carriers with
  | nil => simp [splitLeaders]
  | cons n links ih =>
    unfold splitLeaders
    split_ifs with hcarried
    · exact ih carriers
    · obtain ⟨hfresh, hnodup⟩ := ih (carriers ++ [n.transport])
      refine ⟨forall_mem_cons.2 ⟨hcarried, fun m hm h => hfresh m hm (mem_append_left _ h)⟩,
        nodup_cons.2 ⟨fun hmem => ?_, hnodup⟩⟩
      obtain ⟨m, hm, hsame⟩ := mem_map.1 hmem
      exact hfresh m hm (by simp [hsame])

lemma splitLeaders_led (carriers : List TransportType)
    (hn : n ∈ links) (hnew : n.transport ∉ carriers) :
    ∃ leader ∈ (splitLeaders carriers links).1, leader.transport = n.transport := by
  induction links generalizing carriers with
  | nil => cases hn
  | cons m links ih =>
    unfold splitLeaders
    split_ifs with hcarried
    · rcases mem_cons.1 hn with rfl | hn
      · exact absurd hcarried hnew
      · exact ih carriers hn hnew
    · by_cases hsame : m.transport = n.transport
      · exact ⟨m, mem_cons_self, hsame⟩
      · obtain ⟨leader, hleader, hled⟩ := ih (carriers ++ [m.transport])
          ((mem_cons.1 hn).resolve_left fun h => hsame (h ▸ rfl)) (by simp [hnew, Ne.symm hsame])
        exact ⟨leader, mem_cons_of_mem _ hleader, hled⟩

lemma splitLeaders_leader {carriers : List TransportType}
    (hrefl : ∀ n, r n n) (hsorted : links.Pairwise r) (ha : a ∈ (splitLeaders carriers links).1)
    (hb : b ∈ links) (hsame : b.transport = a.transport) : r a b := by
  induction links generalizing carriers with
  | nil => cases hb
  | cons n links ih =>
    obtain ⟨hfirst, hsorted⟩ := pairwise_cons.1 hsorted
    have hfresh := (splitLeaders_fresh carriers (n :: links)).1 a ha
    unfold splitLeaders at ha
    split_ifs at ha with hcarried
    · rcases mem_cons.1 hb with rfl | hb
      · exact absurd (hsame ▸ hcarried) hfresh
      · exact ih hsorted ha hb
    · rcases mem_cons.1 ha with rfl | ha
      · exact (mem_cons.1 hb).elim (· ▸ hrefl _) (hfirst b)
      · rcases mem_cons.1 hb with rfl | hb
        · exact absurd (by simp [hsame]) ((splitLeaders_fresh (carriers ++ [b.transport]) links).1 a ha)
        · exact ih hsorted ha hb

section
variable (host : HashHost) (g : MeshRelayGovernor F) (id : MessageId) (candidates : List MeshNeighbor)

instance : Std.Total (linkBefore host g id) where
  total a b := by
    unfold linkBefore
    omega

instance : IsTrans MeshNeighbor (linkBefore host g id) where
  trans a b c := by
    unfold linkBefore
    omega

/-- The strongest link of its carrier, the tie-break deciding between equals. -/
def LeadsCarrier (a : MeshNeighbor) : Prop :=
  a ∈ candidates ∧ ∀ b ∈ candidates, b.transport = a.transport → linkBefore host g id a b

structure FanoutLaw (fanout : ℕ) (select : List PeerId) : Prop where
  count : select.length = min fanout candidates.length
  distinct : select.Nodup
  chosen : select ⊆ candidates.map (·.peerId)
  leadersFirst : ∀ a b, LeadsCarrier host g id candidates a → b ∈ candidates →
    ¬LeadsCarrier host g id candidates b → b.peerId ∈ select →
    [a.peerId, b.peerId].Sublist select
  represented : (candidates.map (·.transport)).dedup.length ≤ fanout →
    ∀ n ∈ candidates, ∃ m ∈ candidates, m.transport = n.transport ∧ m.peerId ∈ select
  strongest : ∀ a ∈ candidates, ∀ b ∈ candidates, a.transport = b.transport →
    a.peerId ∈ select → b.peerId ∉ select → b.linkQuality ≤ a.linkQuality

def leaders : List MeshNeighbor :=
  (splitLeaders [] (candidates.insertionSort (linkBefore host g id))).1

def followers : List MeshNeighbor :=
  (splitLeaders [] (candidates.insertionSort (linkBefore host g id))).2

/-- The candidates in the order in which they are chosen. -/
def ranked : List MeshNeighbor :=
  leaders host g id candidates ++ followers host g id candidates

end

variable {host : HashHost} {id : MessageId}

lemma ranked_perm : (ranked host g id candidates).Perm candidates :=
  (splitLeaders_perm _ _).1.trans (perm_insertionSort _ _)

lemma leader_leads (ha : a ∈ leaders host g id candidates) :
    LeadsCarrier host g id candidates a := by
  refine ⟨ranked_perm.mem_iff.1 (mem_append_left _ ha), fun b hb hsame => ?_⟩
  exact splitLeaders_leader (fun _ => .inr ⟨rfl, le_rfl⟩) (pairwise_insertionSort _ _) ha
    ((mem_insertionSort _).2 hb) hsame

lemma led (hn : n ∈ candidates) :
    ∃ leader ∈ leaders host g id candidates, leader.transport = n.transport :=
  splitLeaders_led [] ((mem_insertionSort _).2 hn) (by simp)

/-- A chosen link that does not lead its carrier leaves room for every leader. -/
lemma take_ranked (hb : b ∈ (ranked host g id candidates).take fanout)
    (hfollows : b ∉ leaders host g id candidates) :
    let left := fanout - (leaders host g id candidates).length
    (ranked host g id candidates).take fanout =
        leaders host g id candidates ++ (followers host g id candidates).take left ∧
      b ∈ (followers host g id candidates).take left := by
  intro left
  unfold ranked at hb ⊢
  rw [take_append] at hb ⊢
  have hmem := (mem_append.1 hb).resolve_left fun h => hfollows (mem_of_mem_take h)
  have hroom : (leaders host g id candidates).length ≤ fanout := by
    by_contra hfull
    rw [Nat.sub_eq_zero_of_le (Nat.le_of_not_le hfull)] at hmem
    cases hmem
  rw [take_of_length_le hroom]
  exact ⟨rfl, hmem⟩

lemma leaders_chosen (h : (candidates.map (·.transport)).dedup.length ≤ fanout)
    (ha : a ∈ leaders host g id candidates) : a ∈ (ranked host g id candidates).take fanout := by
  have hcarriers : (leaders host g id candidates).map (·.transport) ⊆
      (candidates.map (·.transport)).dedup := by
    intro carrier hcarrier
    obtain ⟨n, hn, rfl⟩ := mem_map.1 hcarrier
    exact mem_dedup.2 (mem_map_of_mem (leader_leads hn).1)
  have hlength := ((splitLeaders_fresh [] _).2.subperm hcarriers).length_le
  rw [length_map] at hlength
  rw [ranked, take_append, take_of_length_le (show (leaders host g id _).length ≤ _ from
    hlength.trans h)]
  exact mem_append_left _ ha

lemma chosen_strongest (ha : a ∈ (ranked host g id candidates).take fanout)
    (hb : b ∈ candidates) (hunchosen : b ∉ (ranked host g id candidates).take fanout)
    (hsame : a.transport = b.transport) : linkBefore host g id a b := by
  by_cases hleader : a ∈ leaders host g id candidates
  · exact (leader_leads hleader).2 b hb hsame.symm
  obtain ⟨htake, ha⟩ := take_ranked ha hleader
  rw [htake] at hunchosen
  have hfollows := (mem_append.1 (ranked_perm.mem_iff.2 hb)).resolve_left
    fun h => hunchosen (mem_append_left _ h)
  -- the followers keep the order of the sort, and the cut runs through them
  have hsorted : (followers host g id candidates).Pairwise (linkBefore host g id) :=
    (pairwise_insertionSort _ candidates).sublist (splitLeaders_perm [] _).2
  rw [← take_append_drop (fanout - (leaders host g id candidates).length)
    (followers host g id candidates)] at hfollows hsorted
  have hdrop := (mem_append.1 hfollows).resolve_left fun h => hunchosen (mem_append_right _ h)
  exact (pairwise_append.1 hsorted).2.2 a ha b hdrop

section
variable {candidates order listed : List MeshNeighbor} (hpeers : (candidates.map (·.peerId)).Nodup)
variable (hhash : ∀ a ∈ candidates, ∀ b ∈ candidates,
  host.hashOf [id, a.peerId, g.localId] = host.hashOf [id, b.peerId, g.localId] →
    a.peerId = b.peerId)
include hpeers

lemma mem_chosen (h : order.Perm candidates) (ha : a ∈ candidates) :
    a.peerId ∈ (order.take fanout).map (·.peerId) ↔ a ∈ order.take fanout := by
  refine ⟨fun hchosen => ?_, mem_map_of_mem⟩
  obtain ⟨n, hn, hpeer⟩ := mem_map.1 hchosen
  exact inj_on_of_nodup_map hpeers (h.mem_iff.1 (mem_of_mem_take hn)) ha hpeer ▸ hn

lemma FanoutLaw.of_take (h : order.Perm candidates)
    (hfirst : ∀ a b, LeadsCarrier host g id candidates a → b ∈ candidates →
      ¬LeadsCarrier host g id candidates b → b ∈ order.take fanout →
      [a.peerId, b.peerId].Sublist ((order.take fanout).map (·.peerId)))
    (hrep : (candidates.map (·.transport)).dedup.length ≤ fanout →
      ∀ n ∈ candidates, ∃ m ∈ order.take fanout, m.transport = n.transport)
    (hstrong : ∀ a ∈ order.take fanout, ∀ b ∈ candidates, b ∉ order.take fanout →
      a.transport = b.transport → linkBefore host g id a b) :
    FanoutLaw host g id candidates fanout ((order.take fanout).map (·.peerId)) where
  count := by rw [length_map, length_take, h.length_eq]
  distinct := ((h.map (·.peerId)).nodup_iff.2 hpeers).sublist ((take_sublist _ _).map _)
  chosen := fun peer hpeer => (h.map (·.peerId)).mem_iff.1 (((take_sublist _ _).map _).mem hpeer)
  leadersFirst a b ha hb hfollows hin := hfirst a b ha hb hfollows ((mem_chosen hpeers h hb).1 hin)
  represented hcarriers n hn := by
    obtain ⟨m, hm, hsame⟩ := hrep hcarriers n hn
    exact ⟨m, h.mem_iff.1 (mem_of_mem_take hm), hsame, mem_map_of_mem hm⟩
  strongest a ha b hb hsame hin hout := by
    rw [mem_chosen hpeers h ha] at hin
    rw [mem_chosen hpeers h hb] at hout
    have hbefore := hstrong a hin b hb hout hsame
    unfold linkBefore at hbefore
    omega

include hhash

lemma linkBefore_antisymm (ha : a ∈ candidates) (hb : b ∈ candidates)
    (hab : linkBefore host g id a b) (hba : linkBefore host g id b a) : a = b := by
  unfold linkBefore at hab hba
  exact inj_on_of_nodup_map hpeers ha hb (hhash a ha b hb (by omega))

lemma ranked_listing (h : listed.Perm candidates) :
    ranked host g id listed = ranked host g id candidates := by
  have hsort : listed.insertionSort (linkBefore host g id) =
      candidates.insertionSort (linkBefore host g id) := by
    refine Perm.eq_of_pairwise (fun a b ha hb => ?_) (pairwise_insertionSort _ _)
      (pairwise_insertionSort _ _)
      ((perm_insertionSort _ _).trans (h.trans (perm_insertionSort _ _).symm))
    exact linkBefore_antisymm hpeers hhash (h.mem_iff.1 ((mem_insertionSort _).1 ha))
      ((mem_insertionSort _).1 hb)
  simp only [ranked, leaders, followers, hsort]

lemma fanoutLaw_ranked (fanout : ℕ) : FanoutLaw host g id candidates fanout
    (((ranked host g id candidates).take fanout).map (·.peerId)) := by
  refine .of_take hpeers ranked_perm ?_ ?_ fun a ha b hb => chosen_strongest ha hb
  · intro a b ha hb hfollows hin
    obtain ⟨htake, hlate⟩ := take_ranked hin fun h => hfollows (leader_leads h)
    obtain ⟨leader, hleader, hsame⟩ := led ha.1
    have hleads := leader_leads hleader
    -- two links that lead one carrier are one
    have heq := linkBefore_antisymm hpeers hhash ha.1 hleads.1 (ha.2 leader hleads.1 hsame)
      (hleads.2 a ha.1 hsame.symm)
    rw [htake, map_append, heq]
    exact (singleton_sublist.2 (mem_map_of_mem hleader)).append
      (singleton_sublist.2 (mem_map_of_mem hlate))
  · intro hcarriers n hn
    obtain ⟨leader, hleader, hsame⟩ := led hn
    exact ⟨leader, leaders_chosen hcarriers hleader, hsame⟩

end

lemma length_le_one_of_reverse {peers : List PeerId} (hnodup : peers.Nodup)
    (h : peers.reverse = peers) : peers.length ≤ 1 := by
  cases peers with
  | nil => simp
  | cons first rest =>
    cases hrest : rest.reverse with
    | nil => simp [reverse_eq_nil_iff.1 hrest]
    | cons last middle =>
      rw [reverse_cons, hrest] at h
      have hmem : first ∈ rest.reverse := by simp [hrest, (cons.inj h).1]
      exact absurd (mem_reverse.1 hmem) (nodup_cons.1 hnodup).1

lemma eq_of_perm_single :
    ∀ {listed candidates : List MeshNeighbor}, listed.Perm candidates → candidates.length ≤ 1 →
      listed = candidates
  | _, [], h, _ => h.eq_nil
  | _, [_], h, _ => h.eq_singleton

lemma fanoutLaw_single (hpeers : (candidates.map (·.peerId)).Nodup)
    (h : candidates.length ≤ min 1 fanout) :
    FanoutLaw host g id candidates fanout (candidates.map (·.peerId)) := by
  refine ⟨by rw [length_map]; omega, hpeers, Subset.refl _, ?_, ?_, ?_⟩
  · intro a b ha hb hfollows
    obtain ⟨n, rfl⟩ := length_eq_one_iff.1
      (le_antisymm (h.trans (min_le_left _ _)) (length_pos_of_mem hb))
    obtain rfl := mem_singleton.1 hb
    obtain rfl := mem_singleton.1 ha.1
    exact absurd ha hfollows
  · exact fun _ n hn => ⟨n, hn, rfl, mem_map_of_mem hn⟩
  · exact fun a _ b hb _ _ hout => absurd (mem_map_of_mem hb) hout

/-- The fan-out keeps its law exactly where the candidates are ranked, or there
are not two of them to rank: the short path keeps the order of the listing. -/
theorem fanout_law_iff (host : HashHost) (g : MeshRelayGovernor F) (id : MessageId)
    (neighbors : List MeshNeighbor) (exclude : List PeerId) (fanout : ℕ)
    (hpeers : (neighbors.map (·.peerId)).Nodup) (hhash : ∀ a ∈ neighbors, ∀ b ∈ neighbors,
      host.hashOf [id, a.peerId, g.localId] = host.hashOf [id, b.peerId, g.localId] →
        a.peerId = b.peerId) (hfanout : 1 ≤ fanout) :
    let candidates := neighbors.filter fun n => decide (n.peerId ∉ exclude)
    let select := fun listed => g.selectWithinFanout host listed exclude id fanout
    (FanoutLaw host g id candidates fanout (select neighbors) ∧
        ∀ listed : List MeshNeighbor, listed.Perm neighbors → select listed = select neighbors) ↔
      candidates.length ≤ 1 ∨ fanout < candidates.length := by
  intro candidates select
  have hcandidates : (candidates.map (·.peerId)).Nodup := hpeers.sublist (filter_sublist.map _)
  have hhash : ∀ a ∈ candidates, ∀ b ∈ candidates, _ → a.peerId = b.peerId :=
    fun a ha b hb => hhash a (mem_of_mem_filter ha) b (mem_of_mem_filter hb)
  constructor
  · rintro ⟨-, hlisting⟩
    by_contra hshort
    obtain ⟨htwo, hshort⟩ := not_or.1 hshort
    -- two candidates or more come out in the order in which they were listed
    have hreversed := hlisting neighbors.reverse neighbors.reverse_perm
    have hlength : (neighbors.filter fun n => decide (n.peerId ∉ exclude)).length ≤ fanout :=
      Nat.le_of_not_lt hshort
    simp only [select, selectWithinFanout, filter_reverse, length_reverse, map_reverse,
      if_pos hlength] at hreversed
    exact htwo (by simpa using length_le_one_of_reverse hcandidates hreversed)
  · rintro (hsingle | hfull)
    · have hselect {listed : List MeshNeighbor} (h : listed.Perm neighbors) : select listed =
          candidates.map (·.peerId) := by
        have hperm := h.filter fun n => decide (n.peerId ∉ exclude)
        simp only [select, selectWithinFanout, if_pos (hperm.length_eq ▸ hsingle.trans hfanout),
          eq_of_perm_single hperm hsingle, candidates]
      rw [hselect (.refl _)]
      exact ⟨fanoutLaw_single hcandidates (le_min hsingle (hsingle.trans hfanout)),
        fun listed h => hselect h⟩
    · have hselect {listed} (h : listed.Perm neighbors) : select listed =
          ((ranked host g id candidates).take fanout).map (·.peerId) := by
        have hperm := h.filter fun n => decide (n.peerId ∉ exclude)
        simp only [select, selectWithinFanout, if_neg (hperm.length_eq ▸ hfull).not_ge]
        exact congrArg (fun l => (l.take fanout).map (·.peerId))
          (ranked_listing hcandidates hhash hperm)
      rw [hselect (.refl _)]
      exact ⟨fanoutLaw_ranked hcandidates hhash fanout, fun listed h => hselect h⟩

/-- A hash that tells peers apart by the lengths of their names. -/
def namedHost : HashHost where
  hashOf seeds := (seeds.map String.length).foldl (fun code n => 16 * code + n) 0
  walk peers := peers

def threeLinks : List MeshNeighbor :=
  [⟨"p", 40, .ble⟩, ⟨"pp", 90, .ble⟩, ⟨"ppp", 50, .wifiDirect⟩]

theorem fanout_law_two_of_three :
    let g := withConfig "a" (.default : MeshRelayConfig ℚ) 0
    FanoutLaw namedHost g "m" threeLinks 2 (g.selectWithinFanout namedHost threeLinks [] "m" 2) :=
  ((fanout_law_iff namedHost (withConfig "a" (.default : MeshRelayConfig ℚ) 0) "m" threeLinks [] 2
    (by decide) (by decide) (by decide)).2 (by decide)).1

/-- With no more links than the fan-out, the weaker Bluetooth link comes out
before the one link that leads its carrier. -/
theorem fanout_short_path_keeps_listing :
    let g := withConfig "a" (.default : MeshRelayConfig ℚ) 0
    ¬FanoutLaw namedHost g "m" threeLinks 3
      (g.selectWithinFanout namedHost threeLinks [] "m" 3) := by
  intro g hlaw
  have hfirst := hlaw.leadersFirst ⟨"ppp", 50, .wifiDirect⟩ ⟨"p", 40, .ble⟩
    ⟨by decide, by decide⟩ (by decide) (fun h => absurd (h.2 ⟨"pp", 90, .ble⟩) (by decide))
    (by decide)
  exact absurd hfirst (by decide)

end OfflineProtocol.MeshRelayGovernor
