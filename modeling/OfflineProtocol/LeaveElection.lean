import OfflineProtocol.KeyedTable
import Mathlib.Data.List.Sort
import Mathlib.Tactic.SplitIfs

/-!
# Who removes a member that leaves

The turn passes along the sorted roster every thirty seconds, whether or not a member may
commit, and the election is given up after three hundred. Commits arrive at once, so the
members share one group; `commits` lists who issued one, and when.
-/

namespace OfflineProtocol.LeaveElection
open KeyedTable Function List

def second : ℕ := 1000000000
def timeout : ℕ := 30 * second
def maxLifetime : ℕ := 300 * second
def attemptCooldown : ℕ := 5 * second

inductive GroupRole
  | admin | member
  deriving DecidableEq

structure GroupMetadata where
  roles : Table String GroupRole
  createdBy : Option String

def GroupMetadata.getRole (data : GroupMetadata) (id : String) : GroupRole :=
  (get data.roles id).getD .member

def GroupMetadata.adminCount (data : GroupMetadata) : ℕ :=
  data.roles.entries.countP (·.2 = .admin)

def GroupMetadata.hasAnyAdmin (data : GroupMetadata) : Bool :=
  data.roles.entries.any (·.2 = .admin)

structure MlsGroup where
  members : List String
  metadata : Option GroupMetadata

inductive RemoveError
  | permissionDenied (text : String)
  | invalidState (text : String)
  | memberNotFound

def sortedIds (ids : List String) : List String := ids.insertionSort fun a b => ¬b < a

/-- The members but the one that leaves, in the order of their turns. -/
def MlsGroup.remaining (g : MlsGroup) (leaver : String) : List String :=
  sortedIds (g.members.filter (· ≠ leaver))

def MlsGroup.isAdmin (g : MlsGroup) (id : String) : Bool :=
  match g.metadata with
  | none => false
  | some data => if data.hasAnyAdmin then data.getRole id = .admin else data.createdBy = some id

def MlsGroup.lastAdmin (g : MlsGroup) (id : String) : Bool :=
  g.metadata.any fun data =>
    data.getRole id = .admin ∧ data.adminCount ≤ 1 ∧ 2 < g.members.length

def MlsGroup.removeMemberRole (g : MlsGroup) (id : String) : MlsGroup :=
  let data := g.metadata.getD ⟨∅, none⟩
  { g with metadata := some { data with roles := data.roles.erase id } }

def MlsGroup.autoPromoteIfNoAdmin (g : MlsGroup) : MlsGroup :=
  match g.metadata, (sortedIds g.members).head? with
  | some data, some promoted =>
    if data.hasAnyAdmin then g
    else { g with metadata := some { data with roles := data.roles.insert promoted .admin } }
  | _, _ => g

def MlsGroup.removeFromGroup (g : MlsGroup) (self member : String) : Except RemoveError MlsGroup :=
  if ¬g.isAdmin self then .error (.permissionDenied "Only admins can remove members")
  else if g.lastAdmin member then
    .error (.invalidState ("Cannot remove the last admin while other members remain. " ++
      "Promote another member to admin first."))
  -- The library finds no leaf for a member that is gone.
  else if member ∉ g.members then .error .memberNotFound
  else
    let g := { g with members := g.members.filter (· ≠ member) }
    .ok (g.removeMemberRole member).autoPromoteIfNoAdmin

structure PendingLeaveElection where
  receivedAt : ℕ
  lastAttemptAt : Option ℕ

/-- The group, and for each device its election about this leave. -/
structure LeaveState where
  group : MlsGroup
  pending : String → Option PendingLeaveElection
  commits : List (ℕ × String)

def LeaveState.new (g : MlsGroup) : LeaveState := ⟨g, fun _ => none, []⟩

def handleGroupMlsLeave (now : ℕ) (sender : String) (payload : Option String) (self : String)
    (s : LeaveState) : LeaveState :=
  if payload ≠ some sender ∨ sender ∉ s.group.members then s
  else if (s.group.remaining sender)[0]? = some self then
    let s := { s with pending := update s.pending self none }
    match s.group.removeFromGroup self sender with
    | .ok g => { s with group := g, commits := s.commits ++ [(now, self)] }
    | .error _ => s
  else { s with pending := update s.pending self (some ⟨now, none⟩) }

def candidateIdx (elapsed count : ℕ) : ℕ := min (elapsed / second / 30) (count - 1)

def checkLeaveElectionTimeouts (now : ℕ) (leaver self : String) (s : LeaveState) : LeaveState :=
  match s.pending self with
  | none => s
  | some election =>
    let elapsed := now - election.receivedAt
    if elapsed ≤ timeout then s
    else if maxLifetime < elapsed ∨ leaver ∉ s.group.members then
      { s with pending := update s.pending self none }
    else
      let remaining := s.group.remaining leaver
      if remaining[candidateIdx elapsed remaining.length]? ≠ some self then s
      else if election.lastAttemptAt.any (now - · < attemptCooldown) then s
      else
        match s.group.removeFromGroup self leaver with
        | .ok g => ⟨g, update s.pending self none, s.commits ++ [(now, self)]⟩
        | .error _ => { s with
            pending := update s.pending self (some { election with lastAttemptAt := some now }) }

/-- The devices hear of the leave at `start`, in some order, and then tick as scheduled. -/
def LeaveState.notice (start : ℕ) (leaver : String) (order : List String) (s : LeaveState) :
    LeaveState :=
  order.foldl (fun s self => handleGroupMlsLeave start leaver (some leaver) self s) s

def LeaveState.tick (leaver : String) (ticks : List (ℕ × String)) (s : LeaveState) : LeaveState :=
  ticks.foldl (fun s tick => checkLeaveElectionTimeouts tick.1 leaver tick.2 s) s

section
variable {g : MlsGroup} {leaver admin : String}

lemma mem_remaining {id : String} : id ∈ g.remaining leaver ↔ id ∈ g.members ∧ id ≠ leaver := by
  unfold MlsGroup.remaining sortedIds
  rw [mem_insertionSort, mem_filter, decide_eq_true_iff]

lemma removeFromGroup_ok (h : g.removeFromGroup self leaver = .ok g') :
    g.isAdmin self ∧ leaver ∈ g.members ∧ leaver ∉ g'.members := by
  unfold MlsGroup.removeFromGroup at h
  split_ifs at h with hadmin hlast hmember
  refine ⟨by simpa using hadmin, hmember, ?_⟩
  cases h
  unfold MlsGroup.autoPromoteIfNoAdmin
  split
  · split_ifs <;> simp [MlsGroup.removeMemberRole]
  · simp [MlsGroup.removeMemberRole]

/-- An admin that stays can remove the leaver, who is then not the last one. -/
lemma removeFromGroup_admin (hadmin : g.isAdmin self) (hself : self ≠ leaver)
    (hmember : leaver ∈ g.members) : ∃ g', g.removeFromGroup self leaver = .ok g' := by
  have hlast : ¬g.lastAdmin leaver := by
    unfold MlsGroup.lastAdmin MlsGroup.isAdmin at *
    cases hdata : g.metadata with
    | none => simp
    | some data =>
      simp only [hdata, Option.any_some, decide_eq_true_iff] at hadmin ⊢
      rintro ⟨hleaver, hcount, -⟩
      have hin {id : String} (hrole : data.getRole id = .admin) :
          (⟨id, .admin⟩ : Sigma fun _ : String => GroupRole) ∈ data.roles.entries := by
        unfold GroupMetadata.getRole at hrole
        cases hget : get data.roles id with
        | none => simp [hget] at hrole
        | some role =>
          rw [hget, Option.getD_some] at hrole
          exact get_eq_some_iff.1 (hrole ▸ hget)
      have hany : data.hasAnyAdmin := any_eq_true.2 ⟨_, hin hleaver, by simp⟩
      rw [if_pos hany, decide_eq_true_iff] at hadmin
      have htwo : [⟨self, .admin⟩, ⟨leaver, .admin⟩] ⊆
          data.roles.entries.filter (·.2 = .admin) := by
        simp [hin hadmin, hin hleaver]
      have hle := (subperm_of_subset (by simp [hself]) htwo).length_le
      rw [← countP_eq_length_filter] at hle
      exact absurd (hle.trans hcount) (by simp)
  unfold MlsGroup.removeFromGroup
  rw [if_neg (by simpa using hadmin), if_neg hlast, if_neg (not_not.2 hmember)]
  exact ⟨_, rfl⟩

/-! ## One commit at most -/

/-- Nobody acted yet, and every election began with the notice. -/
structure Open (g : MlsGroup) (start : ℕ) (s : LeaveState) : Prop where
  group : s.group = g
  commits : s.commits = []
  timely : ∀ id, ∀ election ∈ s.pending id, election.receivedAt = start

/-- One admin acted in time, with an index among the first eleven. -/
def Closed (g : MlsGroup) (leaver : String) (start : ℕ) (s : LeaveState) : Prop :=
  leaver ∉ s.group.members ∧ ∃ time who, s.commits = [(time, who)] ∧ time ≤ start + maxLifetime ∧
    g.isAdmin who ∧ ∃ i ≤ 10, (g.remaining leaver)[i]? = some who

lemma Open.update (hs : Open g start s) (h : ∀ election ∈ pending, election.receivedAt = start) :
    Open g start { s with pending := update s.pending self pending } := by
  refine ⟨hs.group, hs.commits, fun id election he => ?_⟩
  dsimp only at he
  rw [update_apply] at he
  split_ifs at he
  · exact h election he
  · exact hs.timely id election he

lemma Open.closed (hs : Open g start s) (hok : s.group.removeFromGroup self leaver = .ok g')
    (hnow : now ≤ start + maxLifetime) (hi : i ≤ 10)
    (hself : (s.group.remaining leaver)[i]? = some self) :
    Closed g leaver start ⟨g', pending, s.commits ++ [(now, self)]⟩ := by
  rw [hs.group] at hok hself
  obtain ⟨hadmin, -, hout⟩ := removeFromGroup_ok hok
  exact ⟨hout, now, self, by rw [hs.commits]; rfl, hnow, hadmin, i, hi, hself⟩

lemma handle_closed (hs : Closed g leaver start s) (payload : Option String) :
    Closed g leaver start (handleGroupMlsLeave start leaver payload self s) := by
  rwa [handleGroupMlsLeave, if_pos (.inr hs.1)]

lemma handle_open (hs : Open g start s) (payload : Option String) :
    Open g start (handleGroupMlsLeave start leaver payload self s) ∨
      Closed g leaver start (handleGroupMlsLeave start leaver payload self s) := by
  unfold handleGroupMlsLeave
  split_ifs with hout hfirst
  · exact .inl hs
  · dsimp only
    split
    · next hok => exact .inr (hs.closed hok (Nat.le_add_right ..) (Nat.zero_le 10) hfirst)
    · exact .inl (hs.update nofun)
  · exact .inl (hs.update (by simp))

lemma check_closed (hs : Closed g leaver start s) :
    Closed g leaver start (checkLeaveElectionTimeouts now leaver self s) := by
  unfold checkLeaveElectionTimeouts
  dsimp only
  split
  · exact hs
  split_ifs with hearly hover
  · exact hs
  · exact hs
  all_goals exact absurd (.inr hs.1) hover

lemma check_open (hs : Open g start s) :
    Open g start (checkLeaveElectionTimeouts now leaver self s) ∨
      Closed g leaver start (checkLeaveElectionTimeouts now leaver self s) := by
  unfold checkLeaveElectionTimeouts
  dsimp only
  split
  · exact .inl hs
  next election he =>
  have hstart := hs.timely self election he
  split_ifs with hearly hover hturn
  · exact .inl hs
  · exact .inl (hs.update nofun)
  · exact .inl hs
  · exact .inl hs
  split
  · next hok =>
    refine .inr (hs.closed hok (by omega) ?_ (not_not.1 hturn))
    unfold candidateIdx maxLifetime second at *
    omega
  · exact .inl (hs.update (by simpa using hstart))

/-- Without an admin among the first eleven, nobody whose turn comes may commit. -/
lemma commits_nil_of_no_turn
    (h : ∀ i ≤ 10, ∀ id, (g.remaining leaver)[i]? = some id → ¬g.isAdmin id) :
    (((LeaveState.new g).notice start leaver order).tick leaver ticks).commits = [] := by
  have hnot (s : LeaveState) (hs : Open g start s ∨ Closed g leaver start s) : Open g start s :=
    hs.resolve_right fun ⟨_, _, who, _, _, hadmin, i, hi, hwho⟩ => h i hi who hwho hadmin
  have hnotice : Open g start ((LeaveState.new g).notice start leaver order) :=
    foldlRecOn order _ ⟨rfl, rfl, nofun⟩ fun _ hs _ _ => hnot _ (handle_open hs _)
  exact (foldlRecOn ticks _ hnotice fun _ hs _ _ => hnot _ (check_open hs)).commits

/-! ## The turn of an admin -/

/-- The admin is not the first and waits, or somebody acted. -/
def Waits (g : MlsGroup) (leaver admin : String) (start : ℕ) (s : LeaveState) : Prop :=
  (Open g start s ∧ (g.remaining leaver)[0]? ≠ some admin ∧
    s.pending admin = some ⟨start, none⟩) ∨ Closed g leaver start s

lemma check_other (h : admin ≠ self) :
    (checkLeaveElectionTimeouts now leaver self s).pending admin = s.pending admin := by
  unfold checkLeaveElectionTimeouts
  dsimp only
  split
  · rfl
  split_ifs
  · rfl
  · exact update_of_ne h ..
  · rfl
  · rfl
  split <;> exact update_of_ne h ..

variable (hin : leaver ∈ g.members) (hadmin : g.isAdmin admin) (hstays : admin ≠ leaver)
include hin hadmin hstays

lemma handle_waits (hs : Open g start s) (hw : admin = self ∨ Waits g leaver admin start s) :
    Waits g leaver admin start (handleGroupMlsLeave start leaver (some leaver) self s) := by
  have hkept (hne : admin ≠ self) :
      (g.remaining leaver)[0]? ≠ some admin ∧ s.pending admin = some ⟨start, none⟩ := by
    rcases hw.resolve_left hne with ⟨-, h⟩ | h
    · exact h
    · exact absurd (hs.group ▸ hin) h.1
  unfold handleGroupMlsLeave
  rw [if_neg (by simp [hs.group, hin])]
  split_ifs with hfirst
  · dsimp only
    split
    · next hok => exact .inr (hs.closed hok (Nat.le_add_right ..) (Nat.zero_le 10) hfirst)
    · next herror =>
      have hne : admin ≠ self := by
        rintro rfl
        obtain ⟨g', hok⟩ := removeFromGroup_admin hadmin hstays hin
        cases herror.symm.trans (hs.group ▸ hok)
      exact .inl ⟨hs.update nofun, (hkept hne).1, (update_of_ne hne ..).trans (hkept hne).2⟩
  · refine .inl ⟨hs.update (by simp), ?_⟩
    by_cases hself : admin = self
    · subst hself
      exact ⟨hs.group ▸ hfirst, update_self ..⟩
    · exact ⟨(hkept hself).1, (update_of_ne hself ..).trans (hkept hself).2⟩

/-- A waiting admin does nothing before its turn, and commits when it comes. -/
lemma check_turn (hs : Open g start s) (hwait : s.pending admin = some ⟨start, none⟩)
    (hnow : now ≤ start + maxLifetime) :
    if timeout < now - start ∧
        (g.remaining leaver)[candidateIdx (now - start) (g.remaining leaver).length]? = some admin
    then Closed g leaver start (checkLeaveElectionTimeouts now leaver admin s)
    else checkLeaveElectionTimeouts now leaver admin s = s := by
  obtain ⟨g', hok⟩ := removeFromGroup_admin hadmin hstays hin
  have hlate : ¬(maxLifetime < now - start ∨ leaver ∉ g.members) := by
    rintro (h | h)
    · omega
    · exact h hin
  split_ifs with hturn
  · refine (check_open hs).resolve_left fun hopen => ?_
    have hnone := hopen.commits
    unfold checkLeaveElectionTimeouts at hnone
    simp [hwait, hs.group, hlate, hturn.1.not_ge, hturn.2, hok] at hnone
  · unfold checkLeaveElectionTimeouts
    simp only [hwait, hs.group, hlate]
    grind

lemma check_waits (hw : Waits g leaver admin start s) (hnow : now ≤ start + maxLifetime) :
    Waits g leaver admin start (checkLeaveElectionTimeouts now leaver self s) := by
  rcases hw with ⟨hs, hfirst, hwait⟩ | hs
  swap
  · exact .inr (check_closed hs)
  by_cases hself : admin = self
  · subst hself
    have hturn := check_turn hin hadmin hstays hs hwait hnow
    split_ifs at hturn
    · exact .inr hturn
    · rw [hturn]
      exact .inl ⟨hs, hfirst, hwait⟩
  · exact (check_open hs).imp_left fun h => ⟨h, hfirst, (check_other hself).trans hwait⟩

omit hin hadmin hstays

/-- **A leaver is removed by one admin, in time, when an admin is among the first ten.** The
devices hear of the leave at one time in any order, and tick at any times that leave none of
them a second without one. -/
theorem one_admin_removes_leaver {i start : ℕ} {order : List String} {ticks : List (ℕ × String)}
    (hin : leaver ∈ g.members) (hi : i < 10)
    (hindex : (g.remaining leaver)[i]? = some admin) (hadmin : g.isAdmin admin)
    (horder : ∀ id ∈ g.remaining leaver, id ∈ order) (hsorted : ticks.Pairwise (·.1 ≤ ·.1))
    (hdense : ∀ id ∈ g.remaining leaver, ∀ t ≤ maxLifetime,
      ∃ x ∈ ticks, x.2 = id ∧ start + t ≤ x.1 ∧ x.1 ≤ start + t + second) :
    ∃ time who, (((LeaveState.new g).notice start leaver order).tick leaver ticks).commits =
        [(time, who)] ∧ who ∈ g.remaining leaver ∧ g.isAdmin who ∧ time ≤ start + maxLifetime := by
  have hmem := mem_of_getElem? hindex
  have hstays := (mem_remaining.1 hmem).2
  suffices hclosed :
      Closed g leaver start (((LeaveState.new g).notice start leaver order).tick leaver ticks) by
    obtain ⟨-, time, who, hone, htime, hwho, j, -, hj⟩ := hclosed
    exact ⟨time, who, hone, mem_of_getElem? hj, hwho, htime⟩
  -- The notices: those before the admin's own, its own, after which it waits, and the rest.
  have hnotice : Waits g leaver admin start ((LeaveState.new g).notice start leaver order) := by
    obtain ⟨pre, post, rfl⟩ := append_of_mem (horder admin hmem)
    unfold LeaveState.notice
    rw [foldl_append, foldl_cons]
    have hstep {s : LeaveState} {self : String} (hs : Open g start s ∨ Closed g leaver start s)
        (hw : admin = self ∨ Waits g leaver admin start s) :
        Waits g leaver admin start (handleGroupMlsLeave start leaver (some leaver) self s) :=
      hs.elim (fun hs => handle_waits hin hadmin hstays hs hw) fun hs => .inr (handle_closed hs _)
    refine foldlRecOn post _ (hstep ?_ (.inl rfl)) fun _ hw _ _ => hstep (hw.imp_left And.left) (.inr hw)
    exact foldlRecOn (motive := fun s => Open g start s ∨ Closed g leaver start s) pre _
      (.inl ⟨rfl, rfl, nofun⟩) fun _ hs _ _ =>
        hs.elim (handle_open · _) fun hs => .inr (handle_closed hs _)
  -- The admin's tick in the second after its turn begins; all before it are in time.
  obtain ⟨tick, htick, rfl, hafter, hbefore⟩ := hdense admin hmem ((30 * i + 1) * second)
    (by unfold maxLifetime second; omega)
  unfold second at hafter hbefore
  have hlimit : tick.1 ≤ start + maxLifetime := by
    unfold maxLifetime second
    omega
  obtain ⟨pre, post, rfl⟩ := append_of_mem htick
  have hearly (x) (hx : x ∈ pre) : x.1 ≤ tick.1 :=
    (pairwise_append.1 hsorted).2.2 x hx tick mem_cons_self
  unfold LeaveState.tick
  rw [foldl_append, foldl_cons]
  refine foldlRecOn post _ ?_ fun _ hs _ _ => check_closed hs
  have hwaits := foldlRecOn (motive := Waits g leaver tick.2 start) pre
    (fun s tick => checkLeaveElectionTimeouts tick.1 leaver tick.2 s) hnotice fun _ hw x hx =>
      check_waits hin hadmin hstays hw ((hearly x hx).trans hlimit)
  rcases hwaits with ⟨hs, hzero, hwait⟩ | hs
  · have hturn := check_turn hin hadmin hstays hs hwait hlimit
    have hpos : i ≠ 0 := fun h => hzero (h ▸ hindex)
    have hlen := (List.getElem?_eq_some_iff.1 hindex).1
    have hmine : candidateIdx (tick.1 - start) (g.remaining leaver).length = i := by
      unfold candidateIdx second
      omega
    rwa [hmine, if_pos ⟨by unfold timeout second; omega, hindex⟩] at hturn
  · exact check_closed hs

end

def trio : MlsGroup := ⟨["c", "a", "z", "b"], some ⟨.singleton "c" .admin, none⟩⟩

def everySecond : List (ℕ × String) :=
  (range 302).flatMap fun k => ["b", "c", "a"].map (k * second, ·)

/-- The first in turn is refused at the notice and the second after half a minute; the admin
comes third. -/
theorem one_admin_removes_leaver_third :
    (((LeaveState.new trio).notice 0 "z" ["c", "a", "b"]).tick "z" everySecond).commits =
      [(60 * second, "c")] ∧
    ∃ time who, (((LeaveState.new trio).notice 0 "z" ["c", "a", "b"]).tick "z" everySecond).commits =
      [(time, who)] ∧ who ∈ trio.remaining "z" ∧ trio.isAdmin who ∧ time ≤ 0 + maxLifetime := by
  have hrest : trio.remaining "z" = ["a", "b", "c"] := by decide +kernel
  have hsorted : everySecond.Pairwise (·.1 ≤ ·.1) := by
    refine pairwise_flatMap.2 ⟨fun k _ => by simp, pairwise_lt_range.imp fun h => ?_⟩
    simpa using Nat.mul_le_mul_right second h.le
  have hdense : ∀ id ∈ trio.remaining "z", ∀ t ≤ maxLifetime,
      ∃ x ∈ everySecond, x.2 = id ∧ 0 + t ≤ x.1 ∧ x.1 ≤ 0 + t + second := by
    intro id hid t ht
    have hticks : id ∈ ["b", "c", "a"] := by
      rw [hrest] at hid
      grind
    refine ⟨((t + 999999999) / 1000000000 * second, id), mem_flatMap.2
      ⟨(t + 999999999) / 1000000000, ?_, mem_map_of_mem hticks⟩, rfl, ?_, ?_⟩
    · unfold maxLifetime second at ht
      rw [mem_range]
      omega
    all_goals
      unfold second
      omega
  exact ⟨by decide +kernel, one_admin_removes_leaver (i := 2) (by decide) (by decide)
    (by rw [hrest]; rfl) (by decide) (by rw [hrest]; simp) hsorted hdense⟩

def crowd : MlsGroup :=
  ⟨["a", "b", "c", "d", "e", "f", "g", "h", "i", "j", "k", "l", "z"],
    some ⟨.singleton "l" .admin, none⟩⟩

/-- The admin with the twelfth index has no turn, however the members tick. -/
theorem twelfth_admin_has_no_turn : crowd.isAdmin "l" ∧ "l" ∈ crowd.remaining "z" ∧
    ∀ start order ticks,
      (((LeaveState.new crowd).notice start "z" order).tick "z" ticks).commits = [] := by
  have hnone : ∀ i ≤ 10, ((crowd.remaining "z")[i]?).all (!crowd.isAdmin ·) := by decide +kernel
  refine ⟨by decide, by decide +kernel, fun _ _ _ => commits_nil_of_no_turn fun i hi id h => ?_⟩
  simpa [h] using hnone i hi

end OfflineProtocol.LeaveElection
