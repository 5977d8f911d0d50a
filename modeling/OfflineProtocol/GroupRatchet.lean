import OfflineProtocol.EventTrace
import OfflineProtocol.KeyedTable

/-! The generations a device spends on a group's sender ratchet. -/
namespace OfflineProtocol
open KeyedTable EventTrace Option List

abbrev GroupName := String
abbrev GroupMember := String
abbrev FrameId := ℕ

def maxRosterInvisibleGroupGenerations : ℕ := 256

structure RosterRatchetGap where
  epoch : ℕ
  invisible : ℕ

structure GroupRatchet where
  epoch : ℕ
  generation : ℕ

/-- A generation that was spent: the roster of that moment, and the members that were handed
the frame. -/
structure SpentGeneration where
  group : GroupName
  epoch : ℕ
  generation : ℕ
  roster : List GroupMember
  handed : List GroupMember
  deriving DecidableEq

structure GroupSender where
  localId : GroupMember
  groups : Table GroupName GroupRatchet
  rosterInvisibleGenerations : Table GroupName RosterRatchetGap
  ephemeralRungs : Table GroupName (Table GroupMember (List FrameId))
  spent : List SpentGeneration

inductive GroupError
  | groupNotFound
  | notStarted
  | peerNotReachable
  | sendFailed
  | mls

structure GroupHost where
  running : Bool
  roster : Option (List GroupMember)
  gateOpen : Bool
  encrypts : Bool
  linked : GroupMember → Bool
  carries : GroupMember → Option FrameId
  broadcast : Option FrameId
  accepts : GroupMember → Option FrameId
  outbox : FrameId → Option GroupMember

inductive GroupOp
  | message (group : GroupName)
  | ephemeral (group : GroupName)
  | frame (group : GroupName) (target : Option GroupMember)
  /-- A commit, a join or the making of a group. -/
  | enterEpoch (group : GroupName) (epoch : ℕ)
  | restart

structure GroupStep where
  op : GroupOp
  host : GroupHost

namespace GroupSender
variable (host : GroupHost) (group : GroupName) (s : GroupSender)

def groupGenerationBudgetSpent (group : GroupName) (epoch : ℕ) : Bool :=
  match get s.rosterInvisibleGenerations group with
  | some gap =>
    if gap.epoch = epoch then maxRosterInvisibleGroupGenerations ≤ gap.invisible else false
  | none => true

def notedGap (gap : Option RosterRatchetGap) (epoch : ℕ) (rosterWide : Bool) :
    RosterRatchetGap :=
  let entry := gap.getD ⟨epoch, 0⟩
  let entry := if entry.epoch = epoch then entry else ⟨epoch, 0⟩
  { entry with invisible := if rosterWide then 0 else entry.invisible + 1 }

def noteGroupGeneration (epoch : ℕ) (rosterWide : Bool) (s : GroupSender) :
    GroupSender :=
  { s with
    rosterInvisibleGenerations := s.rosterInvisibleGenerations.insert group
      (notedGap (get s.rosterInvisibleGenerations group) epoch rosterWide) }

def encryptForGroup :
    Option GroupRatchet :=
  if host.encrypts then get s.groups group else none

def spend (ratchet : GroupRatchet) (roster handed : List GroupMember)
    (rosterWide : Bool) (s : GroupSender) : GroupSender :=
  let s := { s with groups := s.groups.insert group ⟨ratchet.epoch, ratchet.generation + 1⟩ }
  let s := s.noteGroupGeneration group ratchet.epoch rosterWide
  { s with spent := s.spent ++ [⟨group, ratchet.epoch, ratchet.generation, roster, handed⟩] }

def others (members : List GroupMember) : List GroupMember :=
  members.filter (· ≠ s.localId)

def fanoutGroupFramesPerMember (members : List GroupMember) :
    List FrameId × List GroupMember × List GroupMember :=
  ((s.others members).filterMap host.accepts,
    (s.others members).filter fun member => (host.accepts member).isSome,
    (s.others members).filter fun member => (host.accepts member).isNone)

def sendGroupMessageInner :
    GroupSender × Except GroupError (List FrameId) :=
  match host.roster with
  | none => (s, .error .groupNotFound)
  | some members =>
    match s.encryptForGroup host group with
    | none => (s, .error .mls)
    | some ratchet =>
      match host.broadcast with
      | some id => (s.spend group ratchet members (s.others members) true, .ok [id])
      | none =>
        let (ids, succeeded, _) := s.fanoutGroupFramesPerMember host members
        let s' := s.spend group ratchet members succeeded true
        if s.others members ≠ [] ∧ ids = [] then (s', .error .sendFailed) else (s', .ok ids)

def membersAwaitingARung :
    GroupSender × List GroupMember :=
  match get s.ephemeralRungs group with
  | none => (s, [])
  | some rungs =>
    let rungs := mapValues rungs fun _ ids => ids.filter fun id => (host.outbox id).isSome
    let rungs := retain rungs fun _ ids => !ids.isEmpty
    let held := rungs.keys
    if held.isEmpty then ({ s with ephemeralRungs := s.ephemeralRungs.erase group }, held)
    else ({ s with ephemeralRungs := s.ephemeralRungs.insert group rungs }, held)

def recordRung (linked : List GroupMember) (s : GroupSender)
    (id : FrameId) : GroupSender :=
  match host.outbox id with
  | none => s
  | some member =>
    if member ∈ linked then s
    else
      let rungs := (get s.ephemeralRungs group).getD ∅
      { s with
        ephemeralRungs := s.ephemeralRungs.insert group
          (rungs.insert member ((get rungs member).getD [] ++ [id])) }

def recordEphemeralRungs (ids : List FrameId)
    (linked : List GroupMember) (s : GroupSender) : GroupSender :=
  ids.foldl (recordRung host group linked) s

def sendEphemeralFrames
    (members linked : List GroupMember) (s : GroupSender) :
    GroupSender × Except GroupError (List FrameId) :=
  match get s.groups group with
  | none => (s, .error .mls)
  | some current =>
    if s.groupGenerationBudgetSpent group current.epoch then
      match s.sendGroupMessageInner host group with
      | (s, .error e) => (s, .error e)
      | (s, .ok ids) => (s.recordEphemeralRungs host group ids linked, .ok ids)
    else
      match s.encryptForGroup host group with
      | none => (s, .error .mls)
      | some ratchet =>
        let succeeded := linked.filter fun member => (host.carries member).isSome
        let failed := (s.others members).filter (fun member => decide (member ∉ linked)) ++
          linked.filter fun member => (host.carries member).isNone
        let s := s.spend group ratchet members succeeded failed.isEmpty
        if succeeded = [] then (s, .error .sendFailed)
        else (s, .ok (linked.filterMap host.carries))

def sendGroupMessageEphemeral :
    GroupSender × Except GroupError (List FrameId) :=
  if host.running = false then (s, .error .notStarted)
  else
    match host.roster with
    | none => (s, .error .groupNotFound)
    | some members =>
      if s.others members = [] then (s, .ok [])
      else
        let (s, held) := s.membersAwaitingARung host group
        let linked := (s.others members).filter fun member =>
          decide (member ∉ held) && host.linked member
        if linked = [] then (s, .error .peerNotReachable)
        else s.sendEphemeralFrames host group members linked

def directedBudgetSpent (target : Option GroupMember) (s : GroupSender) :
    Option Bool :=
  match target with
  | none => some false
  | some _ =>
    (get s.groups group).map fun ratchet => s.groupGenerationBudgetSpent group ratchet.epoch

def sendGroupInternalFrame (target : Option GroupMember)
    (s : GroupSender) : GroupSender × Except GroupError Unit :=
  match host.roster with
  | none => (s, .error .groupNotFound)
  | some members =>
    if s.others members = [] then (s, .ok ())
    else
      match s.directedBudgetSpent group target with
      | none => (s, .error .mls)
      | some budgetSpent =>
        if budgetSpent && !host.gateOpen then (s, .ok ())
        else
          match s.encryptForGroup host group with
          | none => (s, .error .mls)
          | some ratchet =>
            let rosterWide := target.isNone || budgetSpent
            let recipients := if rosterWide then members else target.toList
            let (_, succeeded, _) := s.fanoutGroupFramesPerMember host recipients
            (s.spend group ratchet members succeeded rosterWide, .ok ())

def Exhausted (group : GroupName) : Prop :=
  ∀ ratchet, get s.groups group = some ratchet →
    s.groupGenerationBudgetSpent group ratchet.epoch = true

def RosterWide : GroupOp → Prop
  | .message _ => True
  | .ephemeral group => s.Exhausted group
  | .frame _ none => True
  | .frame group (some _) => s.Exhausted group
  | .enterEpoch _ _ => False
  | .restart => False

def apply (step : GroupStep) : GroupSender :=
  match step.op with
  | .message group => (s.sendGroupMessageInner step.host group).1
  | .ephemeral group => (s.sendGroupMessageEphemeral step.host group).1
  | .frame group target => (s.sendGroupInternalFrame step.host group target).1
  | .enterEpoch group epoch => { s with groups := s.groups.insert group ⟨epoch, 0⟩ }
  | .restart => { s with rosterInvisibleGenerations := ∅, ephemeralRungs := ∅ }

/-- A roster-wide frame is taken by every member's outbox, and epochs rise. -/
def enabled (step : GroupStep) : Prop :=
  (RosterWide s step.op → ∀ member, (step.host.accepts member).isSome = true) ∧
    ∀ group epoch, step.op = .enterEpoch group epoch → ∀ ratchet,
      get s.groups group = some ratchet → ratchet.epoch < epoch

def machine : Machine GroupSender GroupStep := ⟨apply, enabled⟩

structure Alike (s s' : GroupSender) : Prop where
  localId : s'.localId = s.localId
  groups : s'.groups = s.groups
  gaps : s'.rosterInvisibleGenerations = s.rosterInvisibleGenerations
  spent : s'.spent = s.spent

lemma Alike.refl : Alike s s := ⟨rfl, rfl, rfl, rfl⟩

lemma Alike.trans {s s' s''} (h : Alike s s') (h' : Alike s' s'') : Alike s s'' :=
  ⟨h'.localId.trans h.localId, h'.groups.trans h.groups, h'.gaps.trans h.gaps,
    h'.spent.trans h.spent⟩

lemma Alike.spend {s s'} (h : Alike s s') {group}
    {ratchet} {roster handed : List GroupMember} {rosterWide} :
    Alike (s.spend group ratchet roster handed rosterWide)
      (s'.spend group ratchet roster handed rosterWide) where
  localId := h.localId
  groups := by simp only [GroupSender.spend, noteGroupGeneration, h.groups]
  gaps := by simp only [GroupSender.spend, noteGroupGeneration, h.gaps]
  spent := by simp only [GroupSender.spend, noteGroupGeneration, h.spent]

inductive Sent (group : GroupName) (s s' : GroupSender) : Prop
  | idle (h : Alike s s')
  | frame (ratchet : GroupRatchet) (roster handed : List GroupMember) (rosterWide : Bool)
      (hratchet : get s.groups group = some ratchet)
      (hwide : rosterWide = true → ∀ member ∈ roster, member ≠ s.localId → member ∈ handed)
      (hnarrow : rosterWide = false → s.groupGenerationBudgetSpent group ratchet.epoch = false)
      (h : Alike (s.spend group ratchet roster handed rosterWide) s')

variable {host : GroupHost} {group : GroupName} {s s' : GroupSender}

lemma encrypt_some (h : s.encryptForGroup host group = some ratchet) :
    get s.groups group = some ratchet := by
  unfold encryptForGroup at h
  split_ifs at h
  exact h

lemma mem_others : member ∈ s.others members ↔ member ∈ members ∧ member ≠ s.localId := by
  simp [others]

lemma fanout_all (haccept : ∀ member, (host.accepts member).isSome = true) :
    ∀ member ∈ members, member ≠ s.localId →
      member ∈ (s.fanoutGroupFramesPerMember host members).2.1 := by
  intro member hin hne
  exact mem_filter.2 ⟨mem_others.2 ⟨hin, hne⟩, haccept member⟩

lemma message_sent (haccept : ∀ member, (host.accepts member).isSome = true) :
    Sent group s (s.sendGroupMessageInner host group).1 := by
  unfold sendGroupMessageInner
  cases host.roster with
  | none => exact .idle (.refl s)
  | some members =>
    dsimp only
    cases hencrypted : s.encryptForGroup host group with
    | none => exact .idle (.refl s)
    | some ratchet =>
      have hratchet := encrypt_some hencrypted
      cases host.broadcast with
      | some id =>
        refine .frame ratchet members _ true hratchet (fun _ member hin hne => ?_) nofun (.refl _)
        exact mem_others.2 ⟨hin, hne⟩
      | none =>
        refine .frame ratchet members _ true hratchet (fun _ => fanout_all haccept) nofun ?_
        split_ifs <;> exact .refl _

lemma awaiting_alike : Alike s (s.membersAwaitingARung host group).1 := by
  unfold membersAwaitingARung
  cases get s.ephemeralRungs group with
  | none => exact .refl s
  | some rungs =>
    dsimp only
    split_ifs <;> exact ⟨rfl, rfl, rfl, rfl⟩

lemma record_alike : Alike s (s.recordEphemeralRungs host group ids linked) := by
  induction ids generalizing s with
  | nil => exact .refl s
  | cons id ids ih =>
    refine .trans ?_ ih
    unfold recordRung
    cases host.outbox id with
    | none => exact .refl s
    | some member =>
      dsimp only
      split_ifs
      · exact .refl s
      · exact ⟨rfl, rfl, rfl, rfl⟩

lemma Sent.of_alike (h : Alike s t) (hsent : Sent group t s') : Sent group s s' := by
  cases hsent with
  | idle h' => exact .idle (h.trans h')
  | frame ratchet roster handed rosterWide hratchet hwide hnarrow h' =>
    refine .frame ratchet roster handed rosterWide (h.groups ▸ hratchet) ?_ ?_
      ((h.spend).trans h')
    · rw [← h.localId]
      exact hwide
    intro hn
    have hbudget := hnarrow hn
    unfold groupGenerationBudgetSpent at hbudget ⊢
    rw [h.gaps] at hbudget
    exact hbudget

lemma Sent.then_alike (hsent : Sent group s t) (h : Alike t s') : Sent group s s' := by
  cases hsent with
  | idle h' => exact .idle (h'.trans h)
  | frame ratchet roster handed rosterWide hratchet hwide hnarrow h' =>
    exact .frame ratchet roster handed rosterWide hratchet hwide hnarrow (h'.trans h)

lemma ephemeralFrames_sent
    (haccept : s.Exhausted group → ∀ member, (host.accepts member).isSome = true) :
    Sent group s (s.sendEphemeralFrames host group members linked).1 := by
  unfold sendEphemeralFrames
  cases hcur : get s.groups group with
  | none => exact .idle (.refl s)
  | some current =>
    dsimp only
    by_cases hbudget : s.groupGenerationBudgetSpent group current.epoch = true
    · rw [if_pos hbudget]
      have hexhausted : s.Exhausted group := fun ratchet hratchet => by
        rw [← some.inj (hcur.symm.trans hratchet)]
        exact hbudget
      have hsent : Sent group s _ := message_sent (haccept hexhausted)
      cases hinner : s.sendGroupMessageInner host group with
      | mk t result =>
        rw [hinner] at hsent
        cases result with
        | error e => exact hsent
        | ok ids => exact hsent.then_alike record_alike
    rw [if_neg hbudget]
    cases hencrypted : s.encryptForGroup host group with
    | none => exact .idle (.refl s)
    | some ratchet =>
      have hratchet := encrypt_some hencrypted
      refine .frame ratchet members (linked.filter fun member => (host.carries member).isSome)
        ((s.others members).filter (fun member => decide (member ∉ linked)) ++
          linked.filter fun member => (host.carries member).isNone).isEmpty hratchet
        (fun hall member hin hne => ?_) (fun _ => ?_) ?_
      · -- Nobody failed: everyone else was linked and took the frame.
        rw [List.isEmpty_iff, append_eq_nil_iff, filter_eq_nil_iff,
          filter_eq_nil_iff] at hall
        have hlink : member ∈ linked := by
          simpa using hall.1 member (mem_others.2 ⟨hin, hne⟩)
        have hcar := hall.2 member hlink
        refine mem_filter.2 ⟨hlink, ?_⟩
        cases hc : host.carries member with
        | none => simp [hc] at hcar
        | some id => rfl
      · rw [← some.inj (hcur.symm.trans hratchet)]
        exact Bool.not_eq_true _ ▸ hbudget
      · split_ifs <;> exact .refl _

lemma ephemeral_sent (haccept : s.Exhausted group → ∀ member, (host.accepts member).isSome = true) :
    Sent group s (s.sendGroupMessageEphemeral host group).1 := by
  unfold sendGroupMessageEphemeral
  split_ifs
  · exact .idle (.refl s)
  cases host.roster with
  | none => exact .idle (.refl s)
  | some members =>
    dsimp only
    split_ifs
    · exact .idle (.refl s)
    · exact .idle awaiting_alike
    have halike : Alike s (s.membersAwaitingARung host group).1 := awaiting_alike
    refine .of_alike halike (ephemeralFrames_sent fun hexhausted => haccept ?_)
    unfold Exhausted groupGenerationBudgetSpent at hexhausted ⊢
    rwa [halike.groups, halike.gaps] at hexhausted

lemma frame_sent (haccept : RosterWide s (.frame group target) →
      ∀ member, (host.accepts member).isSome = true) :
    Sent group s (s.sendGroupInternalFrame host group target).1 := by
  unfold sendGroupInternalFrame
  cases host.roster with
  | none => exact .idle (.refl s)
  | some members =>
    dsimp only
    split_ifs
    · exact .idle (.refl s)
    cases hdir : s.directedBudgetSpent group target with
    | none => exact .idle (.refl s)
    | some budgetSpent =>
      dsimp only
      by_cases hwith : (budgetSpent && !host.gateOpen) = true
      · rw [if_pos hwith]
        exact .idle (.refl s)
      rw [if_neg hwith]
      cases hencrypted : s.encryptForGroup host group with
      | none => exact .idle (.refl s)
      | some ratchet =>
        have hratchet := encrypt_some hencrypted
        have hbudget : target.isSome = true →
            s.groupGenerationBudgetSpent group ratchet.epoch = budgetSpent := by
          intro hsome
          obtain ⟨member, rfl⟩ := isSome_iff_exists.1 hsome
          simpa [directedBudgetSpent, hratchet] using hdir
        refine .frame ratchet members _ _ hratchet (fun hwide => ?_) (fun hnarrow => ?_) (.refl _)
        · rw [if_pos hwide]
          refine fanout_all (haccept ?_)
          cases target with
          | none => trivial
          | some member =>
            intro ratchet' hratchet'
            rw [← some.inj (hratchet.symm.trans hratchet'), hbudget rfl]
            exact hwide
        · cases target with
          | none => cases hnarrow
          | some member => exact (hbudget rfl).trans hnarrow

structure Bounded (s : GroupSender) : Prop where
  past : ∀ x ∈ s.spent, ∃ ratchet, get s.groups x.group = some ratchet ∧
    (x.epoch < ratchet.epoch ∨ x.epoch = ratchet.epoch ∧ x.generation < ratchet.generation)
  counted : ∀ group gap, get s.rosterInvisibleGenerations group = some gap →
    ∃ ratchet, get s.groups group = some ratchet ∧ gap.epoch ≤ ratchet.epoch ∧
      gap.invisible ≤ maxRosterInvisibleGroupGenerations
  untouched : ∀ group gap ratchet, get s.rosterInvisibleGenerations group = some gap →
    get s.groups group = some ratchet → gap.epoch ≠ ratchet.epoch →
    ∀ x ∈ s.spent, x.group = group → x.epoch ≠ ratchet.epoch
  rung : ∀ group gap ratchet, get s.rosterInvisibleGenerations group = some gap →
    get s.groups group = some ratchet → gap.epoch = ratchet.epoch →
    ∀ x ∈ s.spent, x.group = group → x.epoch = ratchet.epoch →
    x.generation + gap.invisible < ratchet.generation →
    ∃ y ∈ s.spent, y.group = group ∧ y.epoch = ratchet.epoch ∧
      y.generation + gap.invisible + 1 = ratchet.generation ∧
      ∀ member ∈ y.roster, member ≠ s.localId → member ∈ y.handed
  windows : ∀ group epoch first member,
    (∀ i ≤ maxRosterInvisibleGroupGenerations, ∃ x ∈ s.spent, x.group = group ∧
      x.epoch = epoch ∧ x.generation = first + i) →
    (∀ x ∈ s.spent, x.group = group → x.epoch = epoch → first ≤ x.generation →
      x.generation ≤ first + maxRosterInvisibleGroupGenerations →
      member ∈ x.roster ∧ member ≠ s.localId) →
    ∃ x ∈ s.spent, x.group = group ∧ x.epoch = epoch ∧ first ≤ x.generation ∧
      x.generation ≤ first + maxRosterInvisibleGroupGenerations ∧ member ∈ x.handed

lemma Bounded.alike (h : s.Bounded) (ha : Alike s s') : s'.Bounded := by
  obtain ⟨hid, hgroups, hgaps, hspent⟩ := ha
  constructor
  · rw [hgroups, hspent]
    exact h.past
  · rw [hgroups, hgaps]
    exact h.counted
  · rw [hgroups, hgaps, hspent]
    exact h.untouched
  · rw [hgroups, hgaps, hspent, hid]
    exact h.rung
  rw [hspent, hid]
  exact h.windows

lemma notedGap_narrow : notedGap (some gap) epoch false =
      ⟨epoch, if gap.epoch = epoch then gap.invisible + 1 else 1⟩ := by
  unfold notedGap
  by_cases h : gap.epoch = epoch <;> simp [h]

lemma notedGap_wide : notedGap gap epoch true = ⟨epoch, 0⟩ := by
  unfold notedGap
  cases gap with
  | none => simp
  | some gap => by_cases h : gap.epoch = epoch <;> simp [h]

section
variable {ratchet : GroupRatchet} {roster handed : List GroupMember} {rosterWide : Bool}

lemma get_groups_spend : get (s.spend group ratchet roster handed rosterWide).groups other =
      if other = group then some ⟨ratchet.epoch, ratchet.generation + 1⟩ else get s.groups other :=
  get_insert

lemma get_gaps_spend :
    get (s.spend group ratchet roster handed rosterWide).rosterInvisibleGenerations other =
      if other = group then
        some (notedGap (get s.rosterInvisibleGenerations group) ratchet.epoch rosterWide)
      else get s.rosterInvisibleGenerations other :=
  get_insert

lemma mem_spent_spend : x ∈ (s.spend group ratchet roster handed rosterWide).spent ↔
      x ∈ s.spent ∨ x = ⟨group, ratchet.epoch, ratchet.generation, roster, handed⟩ := by
  show x ∈ s.spent ++ [_] ↔ _
  rw [mem_append, mem_singleton]

/-- What is left of the budget when a frame goes to some members only. -/
lemma budget_left (h : s.groupGenerationBudgetSpent group ratchet.epoch = false) :
    ∃ gap, get s.rosterInvisibleGenerations group = some gap ∧
      (gap.epoch = ratchet.epoch → gap.invisible < maxRosterInvisibleGroupGenerations) := by
  unfold groupGenerationBudgetSpent at h
  cases hgap : get s.rosterInvisibleGenerations group with
  | none => simp [hgap] at h
  | some gap =>
    refine ⟨gap, rfl, fun hepoch => ?_⟩
    simpa [hgap, hepoch] using h

variable (h : s.Bounded) (hratchet : get s.groups group = some ratchet)
include h hratchet

lemma Bounded.earlier (hx : x ∈ s.spent) (hgroup : x.group = group)
    (hepoch : x.epoch = ratchet.epoch) : x.generation < ratchet.generation := by
  obtain ⟨ratchet', hget, hlt | ⟨-, hgen⟩⟩ := h.past x hx
  · rw [hgroup, hratchet] at hget
    rw [← some.inj hget, hepoch] at hlt
    exact absurd hlt (lt_irrefl _)
  rw [hgroup, hratchet] at hget
  rw [some.inj hget]
  exact hgen

variable
    (hwide : rosterWide = true → ∀ member ∈ roster, member ≠ s.localId → member ∈ handed)
    (hnarrow : rosterWide = false → s.groupGenerationBudgetSpent group ratchet.epoch = false)
include hwide hnarrow

lemma Bounded.spend_windows (hspent : ∀ i ≤ maxRosterInvisibleGroupGenerations,
      ∃ x ∈ (s.spend group ratchet roster handed rosterWide).spent, x.group = other ∧
        x.epoch = epoch ∧ x.generation = first + i)
    (hroster : ∀ x ∈ (s.spend group ratchet roster handed rosterWide).spent, x.group = other →
      x.epoch = epoch → first ≤ x.generation →
      x.generation ≤ first + maxRosterInvisibleGroupGenerations →
      member ∈ x.roster ∧ member ≠ s.localId) :
    ∃ x ∈ (s.spend group ratchet roster handed rosterWide).spent, x.group = other ∧
      x.epoch = epoch ∧ first ≤ x.generation ∧
      x.generation ≤ first + maxRosterInvisibleGroupGenerations ∧ member ∈ x.handed := by
  by_cases hnew : other = group ∧ epoch = ratchet.epoch ∧ first ≤ ratchet.generation ∧
      ratchet.generation ≤ first + maxRosterInvisibleGroupGenerations
  · obtain ⟨rfl, rfl, hfirst, hlast⟩ := hnew
    have hself : (⟨other, ratchet.epoch, ratchet.generation, roster, handed⟩ : SpentGeneration) ∈
        (s.spend other ratchet roster handed rosterWide).spent := mem_spent_spend.2 (.inr rfl)
    cases rosterWide with
    | true =>
      obtain ⟨hin, hne⟩ := hroster _ hself rfl rfl hfirst hlast
      exact ⟨_, hself, rfl, rfl, hfirst, hlast, hwide rfl member hin hne⟩
    | false =>
      obtain ⟨gap, hgap, hleft⟩ := budget_left (hnarrow rfl)
      -- The window ends with this generation, since nothing later was spent.
      have hend : ratchet.generation = first + maxRosterInvisibleGroupGenerations := by
        obtain ⟨x, hx, hgroup, hepoch, hgen⟩ := hspent _ le_rfl
        rcases mem_spent_spend.1 hx with hold | rfl
        · have := h.earlier hratchet hold hgroup hepoch
          omega
        · exact hgen
      -- It starts with one that was spent before, so the count is of this epoch.
      obtain ⟨x, hx, hgroup, hepoch, hgen⟩ := hspent 0 (Nat.zero_le _)
      have hpos : 0 < maxRosterInvisibleGroupGenerations := by decide
      have hold : x ∈ s.spent := by
        rcases mem_spent_spend.1 hx with hold | rfl
        · exact hold
        have hsame : ratchet.generation = first + 0 := hgen
        omega
      have hcount : gap.epoch = ratchet.epoch := by
        by_contra hne
        exact h.untouched other gap ratchet hgap hratchet hne x hold hgroup hepoch
      have hroom := hleft hcount
      obtain ⟨y, hy, hgroup', hepoch', hgen', hall⟩ := h.rung other gap ratchet hgap hratchet hcount
        x hold hgroup hepoch (by omega)
      have hy' : y ∈ (s.spend other ratchet roster handed false).spent :=
        mem_spent_spend.2 (.inl hy)
      obtain ⟨hin, hne⟩ := hroster y hy' hgroup' hepoch' (by omega) (by omega)
      exact ⟨y, hy', hgroup', hepoch', by omega, by omega, hall member hin hne⟩
  · -- The new generation is not in the window.
    have hold (i) (hi : i ≤ maxRosterInvisibleGroupGenerations) : ∃ x ∈ s.spent,
        x.group = other ∧ x.epoch = epoch ∧ x.generation = first + i := by
      obtain ⟨x, hx, hgroup, hepoch, hgen⟩ := hspent i hi
      rcases mem_spent_spend.1 hx with hold | rfl
      · exact ⟨x, hold, hgroup, hepoch, hgen⟩
      have hsame : ratchet.generation = first + i := hgen
      exact absurd ⟨hgroup.symm, hepoch.symm, by omega, by omega⟩ hnew
    obtain ⟨x, hx, hrest⟩ := h.windows other epoch first member hold fun x hx =>
      hroster x (mem_spent_spend.2 (.inl hx))
    exact ⟨x, mem_spent_spend.2 (.inl hx), hrest⟩

lemma Bounded.spend_rung (hx : x ∈ (s.spend group ratchet roster handed rosterWide).spent)
    (hgroup : x.group = group) (hepoch : x.epoch = ratchet.epoch) (hgen : x.generation +
      (notedGap (get s.rosterInvisibleGenerations group) ratchet.epoch rosterWide).invisible <
        ratchet.generation + 1) :
    ∃ y ∈ (s.spend group ratchet roster handed rosterWide).spent, y.group = group ∧
      y.epoch = ratchet.epoch ∧ y.generation +
        (notedGap (get s.rosterInvisibleGenerations group) ratchet.epoch rosterWide).invisible + 1 =
          ratchet.generation + 1 ∧ ∀ member ∈ y.roster, member ≠ s.localId → member ∈ y.handed := by
  cases rosterWide with
  | true =>
    rw [notedGap_wide]
    exact ⟨_, mem_spent_spend.2 (.inr rfl), rfl, rfl, rfl, hwide rfl⟩
  | false =>
    obtain ⟨gap, hgap, -⟩ := budget_left (hnarrow rfl)
    rw [hgap, notedGap_narrow] at hgen ⊢
    have hold : x ∈ s.spent := by
      rcases mem_spent_spend.1 hx with hold | rfl
      · exact hold
      have hlt : ratchet.generation + (if gap.epoch = ratchet.epoch then gap.invisible + 1 else 1) <
          ratchet.generation + 1 := hgen
      split_ifs at hlt <;> omega
    by_cases hcount : gap.epoch = ratchet.epoch
    · simp only [if_pos hcount] at hgen ⊢
      obtain ⟨y, hy, hgroup', hepoch', hgen', hall⟩ := h.rung group gap ratchet hgap hratchet hcount
        x hold hgroup hepoch (by omega)
      exact ⟨y, mem_spent_spend.2 (.inl hy), hgroup', hepoch', by omega, hall⟩
    · exact absurd hepoch (h.untouched group gap ratchet hgap hratchet hcount x hold hgroup)

lemma Bounded.spend : (s.spend group ratchet roster handed rosterWide).Bounded where
  past x hx := by
    rw [get_groups_spend]
    rcases mem_spent_spend.1 hx with hold | rfl
    · by_cases hgroup : x.group = group
      · rw [if_pos hgroup]
        obtain ⟨ratchet', hget, hpast⟩ := h.past x hold
        rw [hgroup, hratchet] at hget
        rw [← some.inj hget] at hpast
        exact ⟨_, rfl, hpast.imp_right fun ⟨he, hg⟩ => ⟨he, hg.trans (Nat.lt_succ_self _)⟩⟩
      · rw [if_neg hgroup]
        exact h.past x hold
    · rw [if_pos rfl]
      exact ⟨_, rfl, .inr ⟨rfl, Nat.lt_succ_self _⟩⟩
  counted other gap hgap := by
    rw [get_gaps_spend] at hgap
    rw [get_groups_spend]
    split_ifs at hgap with hother
    · rw [if_pos hother]
      refine ⟨_, rfl, ?_⟩
      rw [← some.inj hgap]
      cases rosterWide with
      | true =>
        rw [notedGap_wide]
        exact ⟨le_rfl, Nat.zero_le _⟩
      | false =>
        obtain ⟨old, hold, hleft⟩ := budget_left (hnarrow rfl)
        rw [hold, notedGap_narrow]
        refine ⟨le_rfl, ?_⟩
        dsimp only
        split_ifs with hcount
        · exact hleft hcount
        · decide
    · rw [if_neg hother]
      exact h.counted other gap hgap
  untouched other gap ratchet' hgap hget hne x hx hgroup := by
    rw [get_gaps_spend] at hgap
    rw [get_groups_spend] at hget
    split_ifs at hgap hget with hother
    · rw [← some.inj hgap, ← some.inj hget] at hne
      refine absurd ?_ hne
      cases rosterWide with
      | true => rw [notedGap_wide]
      | false =>
        obtain ⟨old, hold, -⟩ := budget_left (hnarrow rfl)
        rw [hold, notedGap_narrow]
    · rcases mem_spent_spend.1 hx with hold | rfl
      · exact h.untouched other gap ratchet' hgap hget hne x hold hgroup
      · exact absurd hgroup.symm hother
  rung other gap ratchet' hgap hget hsame x hx hgroup hepoch hgen := by
    rw [get_gaps_spend] at hgap
    rw [get_groups_spend] at hget
    split_ifs at hgap hget with hother
    · obtain rfl := some.inj hgap
      obtain rfl := some.inj hget
      subst hother
      exact h.spend_rung hratchet hwide hnarrow hx hgroup hepoch hgen
    · rcases mem_spent_spend.1 hx with hold | rfl
      · obtain ⟨y, hy, hrest⟩ := h.rung other gap ratchet' hgap hget hsame x hold hgroup hepoch hgen
        exact ⟨y, mem_spent_spend.2 (.inl hy), hrest⟩
      · exact absurd hgroup.symm hother
  windows _ _ _ _ hspent hroster := h.spend_windows hratchet hwide hnarrow hspent hroster

end

lemma Bounded.sent (h : s.Bounded) (hsent : Sent group s s') : s'.Bounded := by
  cases hsent with
  | idle ha => exact h.alike ha
  | frame ratchet roster handed rosterWide hratchet hwide hnarrow ha =>
    exact (h.spend hratchet hwide hnarrow).alike ha

lemma Bounded.enterEpoch (h : s.Bounded)
    (hrise : ∀ ratchet, get s.groups group = some ratchet → ratchet.epoch < epoch) :
    Bounded { s with groups := s.groups.insert group ⟨epoch, 0⟩ } where
  past x hx := by
    obtain ⟨ratchet, hget, hpast⟩ := h.past x hx
    rw [get_insert]
    split_ifs with hgroup
    · have hlt := hrise ratchet (hgroup ▸ hget)
      refine ⟨_, rfl, .inl ?_⟩
      show x.epoch < epoch
      rcases hpast with hpast | ⟨hpast, -⟩ <;> omega
    · exact ⟨ratchet, hget, hpast⟩
  counted other gap hgap := by
    obtain ⟨ratchet, hget, hle, hbound⟩ := h.counted other gap hgap
    rw [get_insert]
    split_ifs with hother
    · have hlt := hrise ratchet (hother ▸ hget)
      exact ⟨_, rfl, by show gap.epoch ≤ epoch; omega, hbound⟩
    · exact ⟨ratchet, hget, hle, hbound⟩
  untouched other gap ratchet' hgap hget hne x hx hgroup := by
    rcases of_get_insert hget with ⟨hother, rfl⟩ | ⟨-, hget'⟩
    · obtain ⟨ratchet, hold, hpast⟩ := h.past x hx
      have hlt := hrise ratchet (by rw [← hother, ← hgroup]; exact hold)
      show x.epoch ≠ epoch
      rcases hpast with hpast | ⟨hpast, -⟩ <;> omega
    · exact h.untouched other gap ratchet' hgap hget' hne x hx hgroup
  rung other gap ratchet' hgap hget hsame := by
    rcases of_get_insert hget with ⟨hother, rfl⟩ | ⟨-, hget'⟩
    · obtain ⟨ratchet, hold, hle, -⟩ := h.counted other gap hgap
      have hlt := hrise ratchet (hother ▸ hold)
      have heq : gap.epoch = epoch := hsame
      omega
    · exact h.rung other gap ratchet' hgap hget' hsame
  windows := h.windows

lemma Bounded.restart (h : s.Bounded) :
    Bounded { s with rosterInvisibleGenerations := ∅, ephemeralRungs := ∅ } where
  past := h.past
  counted _ _ hgap := by cases hgap
  untouched _ _ _ hgap := by cases hgap
  rung _ _ _ hgap := by cases hgap
  windows := h.windows

lemma apply_bounded (h : s.Bounded) (he : enabled s step) : (apply s step).Bounded := by
  obtain ⟨haccept, hrise⟩ := he
  unfold apply
  cases hop : step.op with
  | message group => exact h.sent (message_sent (haccept (by rw [hop]; trivial)))
  | ephemeral group =>
    exact h.sent (ephemeral_sent fun hexhausted => haccept (by rw [hop]; exact hexhausted))
  | frame group target =>
    exact h.sent (frame_sent fun hwide => haccept (by rw [hop]; exact hwide))
  | enterEpoch group epoch => exact h.enterEpoch (hrise group epoch hop)
  | restart => exact h.restart

def launched (localId : GroupMember) (groups : Table GroupName GroupRatchet) : GroupSender :=
  ⟨localId, groups, ∅, ∅, []⟩

lemma bounded_launched (localId groups) : (launched localId groups).Bounded where
  past _ hx := nomatch hx
  counted _ _ hgap := by cases hgap
  untouched _ _ _ hgap := by cases hgap
  rung _ _ _ hgap := by cases hgap
  windows _ _ _ _ hspent := by
    obtain ⟨x, hx, -⟩ := hspent 0 (Nat.zero_le _)
    cases hx

end GroupSender

/-- Of 257 generations that a device spends in a row in one epoch of a group, one was handed
to each member that was on the roster all the while. -/
theorem no_member_out_of_reach {localId : GroupMember} {groups : Table GroupName GroupRatchet}
    {steps : List GroupStep} {s : GroupSender}
    (h : GroupSender.machine.Runs (.launched localId groups) steps s) {group : GroupName}
    {epoch first : ℕ} {member : GroupMember}
    (hspent : ∀ i < 257, ∃ x ∈ s.spent, x.group = group ∧ x.epoch = epoch ∧
      x.generation = first + i)
    (hroster : ∀ x ∈ s.spent, x.group = group → x.epoch = epoch → first ≤ x.generation →
      x.generation < first + 257 → member ∈ x.roster ∧ member ≠ s.localId) :
    ∃ x ∈ s.spent, x.group = group ∧ x.epoch = epoch ∧ first ≤ x.generation ∧
      x.generation < first + 257 ∧ member ∈ x.handed := by
  have hbounded : s.Bounded := h.invariant (C := fun _ _ => True)
    (fun _ _ hs he _ => GroupSender.apply_bounded hs he)
    (Machine.along_of_forall fun _ _ _ => trivial) (GroupSender.bounded_launched localId groups)
  obtain ⟨x, hx, hgroup, hepoch, hfirst, hlast, hhand⟩ := hbounded.windows group epoch first member
    (fun i hi => hspent i (Nat.lt_succ_of_le hi))
    fun x hx hgroup hepoch hfirst hlast => hroster x hx hgroup hepoch hfirst
      (Nat.lt_succ_of_le hlast)
  exact ⟨x, hx, hgroup, hepoch, hfirst, Nat.lt_succ_of_le hlast, hhand⟩

def GroupHost.reachable (roster : List GroupMember) : GroupHost where
  running := true
  roster := some roster
  gateOpen := true
  encrypts := true
  linked := fun _ => true
  carries := fun _ => some 0
  broadcast := none
  accepts := fun _ => some 0
  outbox := fun _ => none

def GroupStep.directed : List GroupStep :=
  ⟨.message "chat", .reachable ["me", "ann", "bob"]⟩ ::
    replicate 257 ⟨.frame "chat" (some "ann"), .reachable ["me", "ann", "bob"]⟩

def SpentGeneration.directed : List SpentGeneration :=
  (range 258).map fun n => ⟨"chat", 3, n, ["me", "ann", "bob"],
    if n = 0 ∨ n = 257 then ["ann", "bob"] else ["ann"]⟩

theorem no_member_out_of_reach_directed :
    ∃ x ∈ (GroupSender.machine.replay (.launched "me" ((∅ : Table GroupName GroupRatchet).insert
        "chat" ⟨3, 0⟩)) GroupStep.directed).spent,
      x.group = "chat" ∧ x.epoch = 3 ∧ 1 ≤ x.generation ∧ x.generation < 1 + 257 ∧
        "bob" ∈ x.handed := by
  have henabled : GroupSender.machine.Along GroupSender.enabled (.launched "me"
      ((∅ : Table GroupName GroupRatchet).insert "chat" ⟨3, 0⟩)) GroupStep.directed := by
    refine Machine.along_of_forall fun step hstep s => ?_
    rcases mem_cons.1 hstep with rfl | hrest
    · exact ⟨fun _ _ => rfl, nofun⟩
    rw [eq_of_mem_replicate hrest]
    exact ⟨fun _ _ => rfl, nofun⟩
  have hspent : (GroupSender.machine.replay (.launched "me"
      ((∅ : Table GroupName GroupRatchet).insert "chat" ⟨3, 0⟩)) GroupStep.directed).spent =
      SpentGeneration.directed := by decide +kernel
  have hid : (GroupSender.machine.replay (.launched "me"
      ((∅ : Table GroupName GroupRatchet).insert "chat" ⟨3, 0⟩)) GroupStep.directed).localId =
      "me" := by decide +kernel
  refine no_member_out_of_reach ⟨rfl, henabled⟩ (fun i hi => ?_) fun x hx _ _ _ _ => ?_
  · rw [hspent]
    exact ⟨_, mem_map_of_mem (mem_range.2 (by omega : 1 + i < 258)), rfl, rfl, rfl⟩
  rw [hspent] at hx
  obtain ⟨n, -, rfl⟩ := mem_map.1 hx
  have hbob : "bob" ∈ ["me", "ann", "bob"] := by decide
  rw [hid]
  exact ⟨hbob, by decide⟩

end OfflineProtocol
