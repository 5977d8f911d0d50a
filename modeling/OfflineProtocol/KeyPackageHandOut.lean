import OfflineProtocol.KeyPackageScan
import OfflineProtocol.EventTrace
import Mathlib.Data.Finset.Card
import Mathlib.Data.Finset.Dedup
import Mathlib.Logic.Relation

/-! One init key for each peer. -/
namespace OfflineProtocol
open KeyedTable FaultySchedule EventTrace KeyPackageBundle Option Finset Relation
open Interruption (Fault Part Outcome)

structure Chosen (P : KeyPackageBundle → Prop) (usable : List KeyPackageBundle)
    (choice : Option KeyPackageBundle) : Prop where
  found : ∀ b, choice = some b → b ∈ usable ∧ P b
  missing : choice = none → ∀ b ∈ usable, ¬P b

lemma Chosen.note [DecidablePred P]
    {choice} (h : Chosen P usable choice) (b) :
    Chosen P (usable ++ [b]) (if P b ∧ newerThan b choice = true then some b else choice) where
  found b' hb' := by
    split_ifs at hb' with hnew
    · obtain rfl := some.inj hb'
      exact ⟨List.mem_append_right _ (List.mem_singleton_self _), hnew.1⟩
    obtain ⟨hin, hP⟩ := h.found b' hb'
    exact ⟨List.mem_append_left _ hin, hP⟩
  missing hnone := by
    split_ifs at hnone with hnew
    subst hnone
    exact List.forall_mem_append.2 ⟨h.missing rfl,
      List.forall_mem_singleton.2 fun hP => hnew ⟨hP, rfl⟩⟩

structure Scanned (peer : PushPeer) (usable : List KeyPackageBundle) (scan : PoolScan) : Prop where
  live : scan.live = usable.length
  assignedHere : Chosen (fun b => b.assignedPeer = some peer) usable scan.assignedHere
  unclaimed : Chosen (fun b => b.assignedPeer = none) usable scan.unclaimed
  newest : Chosen (fun _ => True) usable scan.newest

lemma scanned (peer usable) :
    Scanned peer usable (usable.foldl (fun scan bundle => scan.note peer bundle) .start) := by
  induction usable using List.reverseRecOn with
  | nil =>
    have hnone (P) : Chosen P [] none :=
      ⟨fun _ h => (some_ne_none _ h.symm).elim, nofun⟩
    exact ⟨rfl, hnone _, hnone _, hnone _⟩
  | append_singleton usable b ih =>
    rw [List.foldl_append]
    refine ⟨?_, ih.assignedHere.note b, ih.unclaimed.note b, ?_⟩
    · rw [List.length_append, ← ih.live]
      rfl
    have h := ih.newest.note b
    simp only [true_and] at h
    exact h

namespace KeyPool
variable {now now' : ℕ} {s s' : KeyPool} {id : PackageId} {b : KeyPackageBundle} {host : PoolHost}

structure Usable (s : KeyPool) (now : ℕ) (id : PackageId) (b : KeyPackageBundle) : Prop where
  recorded : get s.records id = some b
  unexpired : b.isExpired now = false
  held : id ∈ s.initKeys
  offered : b.withheldFromHandOut = false

def usableIds (s : KeyPool) (now : ℕ) : Finset PackageId :=
  s.records.keys.toFinset.filter fun id =>
    (s.liveBundle now id).any fun b => !b.withheldFromHandOut

lemma usable_iff : s.Usable now id b ↔
    s.liveBundle now id = some b ∧ b.withheldFromHandOut = false := by
  rw [liveBundle_eq_some]
  exact ⟨fun h => ⟨⟨h.recorded, h.unexpired, h.held⟩, h.offered⟩,
    fun h => ⟨h.1.1, h.1.2.1, h.1.2.2, h.2⟩⟩

lemma mem_usableIds : id ∈ s.usableIds now ↔ ∃ b, s.Usable now id b := by
  simp only [usableIds, mem_filter, List.mem_toFinset, any_eq_true]
  constructor
  · rintro ⟨-, b, hlive, hoffered⟩
    exact ⟨b, usable_iff.2 ⟨hlive, by simpa using hoffered⟩⟩
  rintro ⟨b, hb⟩
  exact ⟨mem_of_get hb.recorded, b, (usable_iff.1 hb).1, by simp [hb.offered]⟩

lemma mem_handable : b ∈ s.handable host now ↔ ∃ id, s.Usable now id b := by
  simp only [handable, List.mem_filter, List.mem_filterMap, usable_iff, Bool.not_eq_true',
    exists_and_right]
  refine and_congr_left fun _ => exists_congr fun id => and_iff_right_of_imp fun hlive => ?_
  exact (host.listing_perm _).mem_iff.2 (mem_of_get (liveBundle_eq_some.1 hlive).1)

lemma length_handable : (s.handable host now).length = (s.usableIds now).card := by
  have hcount (ids : List PackageId) :
      ((ids.filterMap (s.liveBundle now)).filter fun b => !b.withheldFromHandOut).length =
        (ids.filter fun id => (s.liveBundle now id).any fun b => !b.withheldFromHandOut).length :=
        by
    induction ids with
    | nil => rfl
    | cons id ids ih =>
      cases hlive : s.liveBundle now id with
      | none => simp [hlive, ih]
      | some b =>
        cases hb : b.withheldFromHandOut <;> simp [hlive, hb, ih]
  rw [handable, hcount, ((host.listing_perm _).filter _).length_eq, usableIds,
    ← List.toFinset_filter, List.toFinset_card_of_nodup ((AList.keys_nodup s.records).filter _)]

lemma Usable.earlier (h : s.Usable now' id b) (hle : now ≤ now') : s.Usable now id b where
  recorded := h.recorded
  unexpired := by
    have hlt := of_decide_eq_false h.unexpired
    exact decide_eq_false (by omega)
  held := h.held
  offered := h.offered

lemma Pruned.usable_iff (h : Pruned now s s') : s'.Usable now id b ↔ s.Usable now id b := by
  rw [KeyPool.usable_iff, KeyPool.usable_iff, h.live]

lemma Pruned.usableIds_eq (h : Pruned now s s') : s'.usableIds now = s.usableIds now := by
  ext id
  simp only [mem_usableIds, h.usable_iff]

inductive Move (now : ℕ) (retires : PackageId → Prop) : KeyPool → KeyPool → Prop
  | prune {s s' : KeyPool} (h : Pruned now s s') : Move now retires s s'
  | sync {s : KeyPool} {id : PackageId} {b : KeyPackageBundle} (hid : retires id)
      (h : s.liveBundle now id = some b) :
      Move now retires s (effect (.store { b with synced := true }) s)
  | claim {s : KeyPool} {id : PackageId} {b : KeyPackageBundle} {peer : PushPeer}
      (h : s.Usable now id b) (hfree : b.assignedPeer = none)
      (hnew : ∀ id' b', s.Usable now id' b' → b'.assignedPeer ≠ some peer) :
      Move now retires s (effect (.store { b with assignedPeer := some peer }) s)
  | mint {s : KeyPool} {reserved : Bool}
      (h : reserved = true ∨ (s.usableIds now).card < maxPushKeyPackages) :
      Move now retires s (s.mint now reserved)
  | useUp {s : KeyPool} {id : PackageId} (hid : retires id) :
      Move now retires s (effect (.deleteKey id) s)
  | forget {s : KeyPool} {id : PackageId} (hid : retires id) :
      Move now retires s (effect (.delete id) s)

variable {retires : PackageId → Prop}

section
variable (h : Move now retires s s') (hs : s.Sound)
include h hs

lemma Move.sound : s'.Sound := by
  cases h with
  | prune h => exact h.sound hs
  | sync _ h =>
    obtain ⟨hid, hlt⟩ := hs.live_made h
    exact hs.store (hid.symm ▸ hlt)
  | claim h =>
    obtain ⟨hid, hlt⟩ := hs.live_made (usable_iff.1 h).1
    exact hs.store (hid.symm ▸ hlt)
  | mint => exact hs.mint
  | useUp => exact hs.spend
  | forget => exact hs.forget _

/-- What can be used after a change could be used before, or was just claimed or made. -/
lemma Move.usable (hb : s'.Usable now id b) :
    s.Usable now id b ∨ (∃ b0 peer, s.Usable now id b0 ∧ b0.assignedPeer = none ∧
        b = { b0 with assignedPeer := some peer } ∧ s' = effect (.store b) s ∧
        ∀ id' b', s.Usable now id' b' → b'.assignedPeer ≠ some peer) ∨
      id = s.fresh ∧ b = .minted s.fresh now false ∧
        (s.usableIds now).card < maxPushKeyPackages := by
  cases h with
  | prune h => exact .inl (h.usable_iff.1 hb)
  | @sync id' b' _ h =>
    have hrec := hb.recorded
    rw [get_store] at hrec
    split_ifs at hrec with heq
    · -- It was just withdrawn.
      have hoffered := hb.offered
      rw [← some.inj hrec] at hoffered
      simp [withheldFromHandOut] at hoffered
    · exact .inl ⟨hrec, hb.unexpired, hb.held, hb.offered⟩
  | @claim id' b' peer h hfree hnew =>
    have hrec := hb.recorded
    rw [get_store] at hrec
    split_ifs at hrec with heq
    · have hid : b'.packageId = id' := (hs.live_made (usable_iff.1 h).1).1
      obtain rfl : id = id' := heq.trans hid
      have hmade := (some.inj hrec).symm
      exact .inr (.inl ⟨b', peer, h, hfree, hmade, by rw [hmade], hnew⟩)
    · exact .inl ⟨hrec, hb.unexpired, hb.held, hb.offered⟩
  | @mint reserved h =>
    have hrec := hb.recorded
    rw [get_mint] at hrec
    split_ifs at hrec with heq
    · have hmade := some.inj hrec
      cases reserved with
      | true =>
        have hoffered := hb.offered
        rw [← hmade] at hoffered
        simp [withheldFromHandOut, minted] at hoffered
      | false => exact .inr (.inr ⟨heq, hmade.symm, h.resolve_left (by decide)⟩)
    · exact .inl ⟨hrec, hb.unexpired, ((mem_mint reserved).1 hb.held).resolve_left heq, hb.offered⟩
  | useUp => exact .inl ⟨hb.recorded, hb.unexpired, mem_of_mem_erase hb.held, hb.offered⟩
  | @forget id' _ =>
    have hrec : get (s.records.erase id') id = some b := hb.recorded
    rw [get_erase] at hrec
    split_ifs at hrec
    exact .inl ⟨hrec, hb.unexpired, hb.held, hb.offered⟩

lemma Move.record (hid : id < s.fresh) (hget : get s'.records id = some b) :
    ∃ b0, get s.records id = some b0 ∧
      (b0.assignedPeer = none ∨ b.assignedPeer = b0.assignedPeer) := by
  cases h with
  | prune h => exact ⟨b, h.records id b hget, .inr rfl⟩
  | @sync id' b' _ h =>
    rw [get_store] at hget
    split_ifs at hget with heq
    · have hid' : b'.packageId = id' := (hs.live_made h).1
      obtain rfl : id = id' := heq.trans hid'
      exact ⟨b', (liveBundle_eq_some.1 h).1, .inr (by rw [← some.inj hget])⟩
    · exact ⟨b, hget, .inr rfl⟩
  | @claim id' b' peer h hfree hnew =>
    rw [get_store] at hget
    split_ifs at hget with heq
    · have hid' : b'.packageId = id' := (hs.live_made (usable_iff.1 h).1).1
      obtain rfl : id = id' := heq.trans hid'
      exact ⟨b', h.recorded, .inl hfree⟩
    · exact ⟨b, hget, .inr rfl⟩
  | mint =>
    rw [get_mint, if_neg hid.ne] at hget
    exact ⟨b, hget, .inr rfl⟩
  | useUp => exact ⟨b, hget, .inr rfl⟩
  | @forget id' _ =>
    exact ⟨b, (of_get_erase hget).2, .inr rfl⟩

lemma Move.keeps (hb : s.Usable now id b)
    (hassigned : b.assignedPeer ≠ none) (hid : ¬retires id) : s'.Usable now id b := by
  have hmade := (hs.live_made (usable_iff.1 hb).1).2
  cases h with
  | prune h => exact h.usable_iff.2 hb
  | @sync id' b' hid' h =>
    have hne : id ≠ b'.packageId := by
      rw [(hs.live_made h).1]
      rintro rfl
      exact hid hid'
    exact ⟨by rw [get_store, if_neg hne, hb.recorded], hb.unexpired, hb.held, hb.offered⟩
  | @claim id' b' peer h hfree hnew =>
    have hne : id ≠ b'.packageId := by
      rw [(hs.live_made (usable_iff.1 h).1).1]
      rintro rfl
      have hsame := hb.recorded.symm.trans h.recorded
      exact hassigned (some.inj hsame ▸ hfree)
    exact ⟨by rw [get_store, if_neg hne, hb.recorded], hb.unexpired, hb.held, hb.offered⟩
  | mint =>
    exact ⟨by rw [get_mint, if_neg hmade.ne, hb.recorded], hb.unexpired,
      (mem_mint _).2 (.inr hb.held), hb.offered⟩
  | @useUp id' hid' =>
    have hne : id ≠ id' := by
      rintro rfl
      exact hid hid'
    exact ⟨hb.recorded, hb.unexpired, mem_erase.2 ⟨hne, hb.held⟩, hb.offered⟩
  | @forget id' hid' =>
    have hne : id ≠ id' := by
      rintro rfl
      exact hid hid'
    have hrec : get (s.records.erase id') id = some b := by
      rw [get_erase_ne hne, hb.recorded]
    exact ⟨hrec, hb.unexpired, hb.held, hb.offered⟩

end

lemma Move.fresh_le (h : Move now retires s s') : s.fresh ≤ s'.fresh := by
  cases h with
  | prune h => exact h.fresh.ge
  | mint => exact Nat.le_succ _
  | sync => exact le_rfl
  | claim => exact le_rfl
  | useUp => exact le_rfl
  | forget => exact le_rfl

structure HandedOut where
  peer : PushPeer
  push : PushKeyPackage

def Withdrawn (now : ℕ) (ids : List PackageId) (s : KeyPool) : Prop :=
  ∀ id ∈ ids, id < s.fresh ∧ ∀ b, ¬s.Usable now id b

structure Assigned (now : ℕ) (handed : List HandedOut) (withdrawn : List PackageId)
    (s : KeyPool) : Prop extends Sound s where
  owned : ∀ x ∈ handed, x.push.poolExhausted = false → x.push.bundle.packageId < s.fresh ∧
    ∀ b, get s.records x.push.bundle.packageId = some b → b.assignedPeer = some x.peer
  retired : Withdrawn now withdrawn s
  apart : ∀ id id' b b' peer, s.Usable now id b → s.Usable now id' b' →
    b.assignedPeer = some peer → b'.assignedPeer = some peer → id = id'
  few : (s.usableIds now).card ≤ maxPushKeyPackages

variable {handed : List HandedOut} {withdrawn : List PackageId}

lemma Assigned.later (h : Assigned now handed withdrawn s) (hle : now ≤ now') :
    Assigned now' handed withdrawn s where
  toSound := h.toSound
  owned := h.owned
  retired id hin := by
    obtain ⟨hmade, hnone⟩ := h.retired id hin
    exact ⟨hmade, fun b hb => hnone b (hb.earlier hle)⟩
  apart id id' b b' peer hb hb' := h.apart id id' b b' peer (hb.earlier hle) (hb'.earlier hle)
  few := by
    refine le_trans (card_le_card fun id hin => ?_) h.few
    obtain ⟨b, hb⟩ := mem_usableIds.1 hin
    exact mem_usableIds.2 ⟨b, hb.earlier hle⟩

/-- At most one package becomes usable at a time, and only below the ceiling. -/
lemma Move.few (h : Move now retires s s') (hs : s.Sound) :
    (s'.usableIds now).card ≤ (s.usableIds now).card ∨
      (s'.usableIds now).card ≤ (s.usableIds now).card + 1 ∧
        (s.usableIds now).card < maxPushKeyPackages := by
  have hold (id) (hin : id ∈ s'.usableIds now) : id ∈ s.usableIds now ∨
      id = s.fresh ∧ (s.usableIds now).card < maxPushKeyPackages := by
    obtain ⟨b, hb⟩ := mem_usableIds.1 hin
    rcases h.usable hs hb with hsame | ⟨b0, -, hb0, -⟩ | ⟨hid, -, hroom⟩
    · exact .inl (mem_usableIds.2 ⟨b, hsame⟩)
    · exact .inl (mem_usableIds.2 ⟨b0, hb0⟩)
    · exact .inr ⟨hid, hroom⟩
  by_cases hroom : (s.usableIds now).card < maxPushKeyPackages
  · refine .inr ⟨le_trans (card_le_card fun id hin => ?_) (card_insert_le s.fresh _), hroom⟩
    rcases hold id hin with hsame | ⟨hid, -⟩
    · exact mem_insert_of_mem hsame
    rw [hid]
    exact mem_insert_self _ _
  · exact .inl (card_le_card fun id hin => (hold id hin).resolve_right fun h => hroom h.2)

lemma Assigned.move (h : Assigned now handed withdrawn s) (hm : Move now retires s s') :
    Assigned now handed withdrawn s' where
  toSound := hm.sound h.toSound
  owned x hin hown := by
    obtain ⟨hmade, hpeer⟩ := h.owned x hin hown
    refine ⟨hmade.trans_le hm.fresh_le, fun b hget => ?_⟩
    obtain ⟨b0, hget0, hfree | hsame⟩ := hm.record h.toSound hmade hget
    · rw [hpeer b0 hget0] at hfree
      cases hfree
    · rw [hsame, hpeer b0 hget0]
  retired id hin := by
    obtain ⟨hmade, hnone⟩ := h.retired id hin
    refine ⟨hmade.trans_le hm.fresh_le, fun b hb => ?_⟩
    rcases hm.usable h.toSound hb with hsame | ⟨b0, -, hb0, -⟩ | ⟨hid, -⟩
    · exact hnone b hsame
    · exact hnone b0 hb0
    · exact hmade.ne hid
  apart id id' b b' peer hb hb' hpeer hpeer' := by
    -- A package made just now has no peer yet, and one is claimed only for a peer with none.
    have hcases (id : PackageId) (b : KeyPackageBundle) (hb : s'.Usable now id b)
        (hpeer : b.assignedPeer = some peer) : s.Usable now id b ∨
        s' = effect (.store b) s ∧ b.packageId = id ∧
          ∀ id' b', s.Usable now id' b' → b'.assignedPeer ≠ some peer := by
      rcases hm.usable h.toSound hb with hsame | ⟨b0, peer', hb0, -, rfl, hs', hnew⟩ | ⟨-, rfl, -⟩
      · exact .inl hsame
      · obtain rfl : peer' = peer := some.inj hpeer
        exact .inr ⟨hs', h.filed id b0 hb0.recorded, hnew⟩
      · cases hpeer
    rcases hcases id b hb hpeer with hsame | ⟨hs', hid, hnew⟩
    · rcases hcases id' b' hb' hpeer' with hsame' | ⟨-, -, hnew⟩
      · exact h.apart id id' b b' peer hsame hsame' hpeer hpeer'
      · exact absurd hpeer (hnew id b hsame)
    by_contra hne
    have hrec := hb'.recorded
    rw [hs', get_store, if_neg (fun heq => hne (hid ▸ heq.symm))] at hrec
    have hheld := hb'.held
    rw [hs'] at hheld
    exact hnew id' b' ⟨hrec, hb'.unexpired, hheld, hb'.offered⟩ hpeer'
  few := by
    have hfew := h.few
    rcases hm.few h.toSound with hle | ⟨hle, hroom⟩
    · exact hle.trans hfew
    · omega

inductive Handing (now : ℕ) (peer : PushPeer) (s₀ : KeyPool) : PushKeyPackage → KeyPool → Prop
  | own {s : KeyPool} {id : PackageId} {b : KeyPackageBundle} (hp : Pruned now s₀ s)
      (hb : s₀.Usable now id b) (hpeer : b.assignedPeer = some peer) :
      Handing now peer s₀ ⟨b, false⟩ s
  | claimed {s : KeyPool} {id : PackageId} {b : KeyPackageBundle} (hp : Pruned now s₀ s)
      (hb : s₀.Usable now id b) (hfree : b.assignedPeer = none)
      (hnew : ∀ id' b', s₀.Usable now id' b' → b'.assignedPeer ≠ some peer) :
      Handing now peer s₀ ⟨{ b with assignedPeer := some peer }, false⟩
        (effect (.store { b with assignedPeer := some peer }) s)
  | shared {s : KeyPool} {id : PackageId} {b : KeyPackageBundle} (hp : Pruned now s₀ s)
      (hb : s₀.Usable now id b) (hfull : maxPushKeyPackages ≤ (s₀.usableIds now).card)
      (hnone : ∀ id' b', s₀.Usable now id' b' →
        b'.assignedPeer ≠ none ∧ b'.assignedPeer ≠ some peer) :
      Handing now peer s₀ ⟨b, true⟩ s
  | minted {s : KeyPool} (hp : Pruned now s₀ s)
      (hroom : (s₀.usableIds now).card < maxPushKeyPackages)
      (hnew : ∀ id' b', s₀.Usable now id' b' → b'.assignedPeer ≠ some peer) :
      Handing now peer s₀
        ⟨{ minted s.fresh now false with assignedPeer := some peer }, false⟩
        (effect (.store { minted s.fresh now false with assignedPeer := some peer
        }) (s.mint now false))

end KeyPool

open KeyPool

def PoolCommand.retires (id : PackageId) : PoolCommand → Bool
  | markSynced id' => id' = id
  | delete id' => id' = id
  | welcome id' => id' = id
  | _ => false

def PoolCommand.withdraws (fresh : ℕ) : PoolCommand → List PackageId
  | publish => [fresh]
  | markSynced id => if id < fresh then [id] else []
  | delete id => if id < fresh then [id] else []
  | welcome id => if id < fresh then [id] else []
  | _ => []

section
variable {now : ℕ} {s : KeyPool} {host : PoolHost}

lemma call_done {op} :
    Spec allDone (fun p => p.durable = s) (poolCall op) (fun _ p => p.durable = effect op s)
      (fun _ _ => False) fun _ => False := by
  refine .operate (fun p _ hp => ?_) (fun _ _ hall _ => by cases hall)
    fun _ _ hall _ => by cases hall
  rw [← hp]
  rfl

lemma generate_done :
    Spec allDone (fun p => p.durable = s) (generateKeyPackage now reserved)
      (fun b p => b = .minted s.fresh now reserved ∧ p.durable = s.mint now reserved)
      (fun _ _ => False) fun _ => False := by
  refine .consult (a := s.fresh) (fun p hp => by rw [hp]) ?_
  refine .bind (Q := fun _ p => p.durable = { s with fresh := s.fresh + 1 })
    (.update fun p hp => by rw [hp]) fun _ => ?_
  exact .bind call_done fun _ => .bind call_done fun _ =>
    .pure fun p hp => ⟨rfl, hp⟩

lemma claim_done : Spec allDone (fun p => p.durable = s) (claimKeyPackage b peer)
      (fun claimed p => claimed = { b with assignedPeer := some peer } ∧
        p.durable = effect (.store { b with assignedPeer := some peer }) s)
      (fun _ _ => False) fun _ => False :=
  .bind call_done fun _ => .pure fun _ hp => ⟨rfl, hp⟩

lemma take_done (peer) : Spec allDone (fun p => p.durable = s) (takePushKeyPackage host now peer)
      (fun push p => Handing now peer s push p.durable) (fun _ _ => False) fun _ => False := by
  refine scan_done ?_
  have hscan := scanned peer (s.handable host now)
  have husable {b} (hin : b ∈ s.handable host now) : ∃ id, s.Usable now id b :=
    mem_handable.1 hin
  have hall {P : KeyPackageBundle → Prop} (h : ∀ b ∈ s.handable host now, P b) (id : PackageId)
      (b : KeyPackageBundle) (hb : s.Usable now id b) : P b := h b (mem_handable.2 ⟨id, hb⟩)
  have hlive := hscan.live
  rw [length_handable] at hlive
  -- The state that the scan left, and what follows from it.
  refine (Spec.named (I := fun t p => Pruned now s t ∧ p.durable = t) fun t => ?_).pre
    fun p hp => ⟨p.durable, hp, rfl⟩
  refine Spec.given (φ := Pruned now s t) (fun _ hp => hp.1) fun hpruned => ?_
  have hclaim (b : KeyPackageBundle) (u : KeyPool)
      (hhand : Handing now peer s ⟨{ b with assignedPeer := some peer }, false⟩
        (effect (.store { b with assignedPeer := some peer }) u)) :
      Spec allDone (fun p => p.durable = u) (do
          let claimed ← claimKeyPackage b peer
          pure (⟨claimed, false⟩ : PushKeyPackage))
        (fun push p => Handing now peer s push p.durable) (fun _ _ => False) fun _ => False := by
    refine .bind claim_done fun claimed => .pure fun p hp => ?_
    rw [hp.1, hp.2]
    exact hhand
  have hdrop {m : PoolM PushKeyPackage}
      (h : Spec allDone (fun p => p.durable = t) m (fun push p => Handing now peer s push p.durable)
        (fun _ _ => False) fun _ => False) :
      Spec allDone (fun p => Pruned now s t ∧ p.durable = t) m
        (fun push p => Handing now peer s push p.durable) (fun _ _ => False) fun _ => False :=
    h.pre fun _ hp => hp.2
  unfold handOut
  split
  · rename_i b hown
    obtain ⟨hin, hpeer⟩ := hscan.assignedHere.found b hown
    obtain ⟨id, hb⟩ := husable hin
    refine .pure fun p hp => ?_
    rw [hp.2]
    exact .own hpruned hb hpeer
  · rename_i b hnew hfound
    obtain ⟨hin, hfree⟩ := hscan.unclaimed.found b hfound
    obtain ⟨id, hb⟩ := husable hin
    exact hdrop (hclaim b t (.claimed hpruned hb hfree (hall (hscan.assignedHere.missing hnew))))
  · rename_i b hnew hfree hfull hnewer
    obtain ⟨id, hb⟩ := husable (hscan.newest.found b hnewer).1
    refine .pure fun p hp => ?_
    rw [hp.2]
    refine .shared hpruned hb (hlive ▸ of_decide_eq_true hfull) fun id' b' hb' => ⟨?_, ?_⟩
    · exact hall (hscan.unclaimed.missing hfree) id' b' hb'
    · exact hall (hscan.assignedHere.missing hnew) id' b' hb'
  rename_i hnew hfree hshort
  refine hdrop (.bind generate_done fun b => ?_)
  refine .given (φ := b = .minted t.fresh now false) (fun _ hp => hp.1) fun hb => ?_
  subst hb
  refine (hclaim _ (t.mint now false) (.minted hpruned ?_
    (hall (hscan.assignedHere.missing hnew)))).pre fun _ hp => hp.2
  -- At the ceiling there is a newest one to share.
  by_contra hfull
  have hle : maxPushKeyPackages ≤ (s.usableIds now).card := not_lt.1 hfull
  cases hnewer : (List.foldl (fun scan bundle => scan.note peer bundle) PoolScan.start
      (s.handable host now)).newest with
  | some b => exact hshort b (decide_eq_true (hlive.symm ▸ hle)) hnewer
  | none =>
    have hempty : s.handable host now = [] :=
      List.eq_nil_iff_forall_not_mem.2 fun b hin => hscan.newest.missing hnewer b hin trivial
    rw [← length_handable, hempty] at hle
    cases hle

lemma generateEach_done (n) :
    Spec allDone (fun p => ReflTransGen (Move now retires) s₀ p.durable ∧
        p.durable.Sound ∧ (p.durable.usableIds now).card + n ≤ maxPushKeyPackages)
      (generateKeyPackages now n)
      (fun _ p => ReflTransGen (Move now retires) s₀ p.durable) (fun _ _ => False)
      fun _ => False := by
  induction n with
  | zero => exact .pure fun _ hp => hp.1
  | succ n ih =>
    refine (Spec.named (I := fun t p => (ReflTransGen (Move now retires) s₀ t ∧ t.Sound ∧
      (t.usableIds now).card + (n + 1) ≤ maxPushKeyPackages) ∧ p.durable = t) fun t => ?_).pre
      fun p hp => ⟨p.durable, hp, rfl⟩
    refine Spec.given (φ := _) (fun _ hp => hp.1) fun ⟨hmoves, hsound, hroom⟩ => ?_
    have hmove : Move now retires t (t.mint now false) := .mint (.inr (by omega))
    refine .bind (generate_done.pre fun _ hp => hp.2) fun b => ih.pre fun p hp => ?_
    rw [hp.2]
    refine ⟨hmoves.tail hmove, hmove.sound hsound, ?_⟩
    rcases hmove.few hsound with hle | ⟨hle, -⟩ <;> omega

lemma withdrawn_one {fresh id} (hfresh : fresh ≤ s.fresh)
    (hnone : ∀ b, ¬s.Usable now id b) : Withdrawn now (if id < fresh then [id] else []) s := by
  intro id' hin
  split_ifs at hin with hlt
  · obtain rfl := List.mem_singleton.1 hin
    exact ⟨hlt.trans_le hfresh, hnone⟩
  · cases hin

lemma perform_moves (hs : s.Sound) (hfew : (s.usableIds now).card ≤ maxPushKeyPackages)
    {command : PoolCommand} (htake : ∀ peer, command ≠ .take peer) :
    Spec allDone (fun p => p.durable = s) (command.perform host now) (fun _ p =>
        ReflTransGen (Move now fun id => command.retires id = true) s p.durable ∧
          Withdrawn now (command.withdraws s.fresh) p.durable)
      (fun _ _ => False) fun _ => False := by
  cases command with
  | take peer => exact absurd rfl (htake peer)
  | ensureMin min =>
    refine .bind (scan_done (.bind ((generateEach_done _).pre fun p hp => ?_) fun _ => .skip))
      fun _ => .pure fun _ hp => ⟨hp, nofun⟩
    refine ⟨.single (.prune hp), hp.sound hs, ?_⟩
    rw [hp.usableIds_eq, length_handable]
    have hmin : Nat.min min maxPushKeyPackages ≤ maxPushKeyPackages := Nat.min_le_right _ _
    omega
  | publish =>
    refine .bind generate_done fun _ => .pure fun p hp => ?_
    rw [hp.2]
    refine ⟨.single (.mint (.inl rfl)), fun id hin => ?_⟩
    obtain rfl := List.mem_singleton.1 hin
    refine ⟨Nat.lt_succ_self _, fun b hb => ?_⟩
    have hrec := hb.recorded
    rw [get_mint, if_pos rfl] at hrec
    have hoffered := hb.offered
    rw [← some.inj hrec] at hoffered
    cases hoffered
  | pending =>
    exact .bind (scan_done (.skip)) fun _ =>
      .pure fun p hp => ⟨.single (.prune hp), nofun⟩
  | markSynced id =>
    have hload : Spec allDone (fun p => p.durable = s) (loadStoredKeyPackage now id)
        (fun found p => Pruned now s p.durable ∧ found = s.liveBundle now id) (fun _ _ => False)
        fun _ => False := by
      refine (Finishes.loadStoredKeyPackage id).spec ((load_pruned allDone_clean
        allDone_findable).pre fun p hp => ?_)
      rw [hp]
      exact .refl
    have hgone (t : KeyPool) (hpruned : Pruned now s t)
        (hnone : ∀ b, s.liveBundle now id = some b → b.synced = true) :
        Withdrawn now (PoolCommand.withdraws s.fresh (.markSynced id)) t := by
      refine withdrawn_one hpruned.fresh.ge fun b hb => ?_
      obtain ⟨hlive, hoffered⟩ := usable_iff.1 (hpruned.usable_iff.1 hb)
      simp [withheldFromHandOut, hnone b hlive] at hoffered
    refine .bind hload fun found => ?_
    refine .given (φ := found = s.liveBundle now id) (fun _ hp => hp.2) fun hfound => ?_
    cases found with
    | none =>
      refine .pure fun p hp => ⟨.single (.prune hp.1), hgone _ hp.1 fun b hb => ?_⟩
      rw [← hfound] at hb
      cases hb
    | some b =>
      dsimp only
      split
      · rename_i hsync
        refine .pure fun p hp => ⟨.single (.prune hp.1), hgone _ hp.1 fun b' hb' => ?_⟩
        rw [← hfound] at hb'
        exact some.inj hb' ▸ hsync
      refine (Spec.named (I := fun t p => Pruned now s t ∧ p.durable = t) fun t => ?_).pre
        fun p hp => ⟨p.durable, hp.1, rfl⟩
      refine Spec.given (φ := Pruned now s t) (fun _ hp => hp.1) fun hpruned => ?_
      refine call_done.conseq (fun _ hp => hp.2) (fun _ p hp => ?_)
      rw [hp]
      refine ⟨(ReflTransGen.single (.prune hpruned)).tail
        (.sync (decide_eq_true rfl) ?_), withdrawn_one hpruned.fresh.ge fun b' hb' => ?_⟩
      · rw [hpruned.live, ← hfound]
      have hrec := hb'.recorded
      rw [get_store, if_pos (hs.live_made hfound.symm).1.symm] at hrec
      have hoffered := hb'.offered
      rw [← some.inj hrec] at hoffered
      simp [withheldFromHandOut] at hoffered
  | delete id =>
    have hid : PoolCommand.retires id (.delete id) = true := decide_eq_true rfl
    refine .bind (Q := fun _ p => p.durable = s) call_done fun _ => ?_
    refine .consult (a := get s.records id) (fun p hp => by rw [hp]) ?_
    cases hfound : get s.records id with
    | none =>
      refine .pure fun p hp => ?_
      rw [hp]
      refine ⟨.refl, withdrawn_one le_rfl fun b hb => ?_⟩
      have hrec := hb.recorded
      rw [hfound] at hrec
      cases hrec
    | some b =>
      refine .known (a := .ok ()) (.attempt (call_done.mono (fun _ hp => hp)
        (fun _ _ hp => ⟨hp, rfl⟩) (fun _ _ hp => hp.elim) fun _ hp => hp)) ?_
      refine call_done.post fun _ p hp => ?_
      rw [hp]
      refine ⟨(ReflTransGen.single (.useUp hid)).tail (.forget hid), ?_⟩
      exact withdrawn_one le_rfl fun b hb => notMem_erase id _ hb.held
  | welcome id =>
    refine call_done.post fun _ p hp => ?_
    rw [hp]
    exact ⟨.single (.useUp (decide_eq_true rfl)),
      withdrawn_one le_rfl fun b hb => notMem_erase id _ hb.held⟩

end

namespace KeyPool
variable {now : ℕ} {s₀ s : KeyPool} {peer : PushPeer} {push : PushKeyPackage}
  {retires : PackageId → Prop} {handed : List HandedOut} {withdrawn : List PackageId}

lemma usable_store (hheld : b.packageId ∈ s.initKeys)
    (hunexpired : b.isExpired now = false) (hoffered : b.withheldFromHandOut = false) :
    (effect (.store b) s).Usable now b.packageId b :=
  ⟨by rw [get_store, if_pos rfl], hunexpired, hheld, hoffered⟩

section
variable (h : Handing now peer s₀ push s)
include h

lemma Handing.usable (hs : s₀.Sound) : s.Usable now push.bundle.packageId push.bundle := by
  cases h with
  | own hp hb hpeer =>
    have hid := hs.filed _ _ hb.recorded
    exact hp.usable_iff.2 (hid.symm ▸ hb)
  | claimed hp hb hfree hnew =>
    have hid := hs.filed _ _ hb.recorded
    have hb' := hp.usable_iff.2 hb
    exact usable_store (hid.symm ▸ hb'.held) hb'.unexpired hb'.offered
  | shared hp hb =>
    have hid := hs.filed _ _ hb.recorded
    exact hp.usable_iff.2 (hid.symm ▸ hb)
  | @minted t hp =>
    refine usable_store ((mem_mint false).2 (.inl rfl)) (decide_eq_false ?_) rfl
    show ¬now + defaultKeyPackageLifetimeMs ≤ now
    have hpos : 0 < defaultKeyPackageLifetimeMs := by decide
    omega

lemma Handing.assigned (hown : push.poolExhausted = false) :
    push.bundle.assignedPeer = some peer := by
  cases h with
  | own _ _ hpeer => exact hpeer
  | claimed => rfl
  | shared => cases hown
  | minted => rfl

/-- A package is shared only when nothing else is left to hand out. -/
lemma Handing.exhausted (hfull : push.poolExhausted = true) :
    maxPushKeyPackages ≤ (s₀.usableIds now).card ∧ ∀ id b, s₀.Usable now id b →
      b.assignedPeer ≠ none ∧ b.assignedPeer ≠ some peer := by
  cases h with
  | own => cases hfull
  | claimed => cases hfull
  | shared _ _ hmany hnone => exact ⟨hmany, hnone⟩
  | minted => cases hfull

lemma Handing.origin (hs : s₀.Sound) :
    push.bundle.packageId = s₀.fresh ∨ ∃ b, s₀.Usable now push.bundle.packageId b ∧
        (push.poolExhausted = false → b.assignedPeer = none ∨ b.assignedPeer = some peer) := by
  cases h with
  | own hp hb hpeer =>
    have hid := hs.filed _ _ hb.recorded
    exact .inr ⟨_, hid.symm ▸ hb, fun _ => .inr hpeer⟩
  | claimed hp hb hfree =>
    have hid := hs.filed _ _ hb.recorded
    exact .inr ⟨_, hid.symm ▸ hb, fun _ => .inl hfree⟩
  | shared hp hb =>
    have hid := hs.filed _ _ hb.recorded
    exact .inr ⟨_, hid.symm ▸ hb, nofun⟩
  | minted hp => exact .inl hp.fresh

lemma Handing.moves (hs : s₀.Sound) : ReflTransGen (Move now retires) s₀ s := by
  cases h with
  | own hp => exact .single (.prune hp)
  | claimed hp hb hfree hnew =>
    refine (ReflTransGen.single (.prune hp)).tail
      (.claim (hp.usable_iff.2 hb) hfree fun id' b' hb' => ?_)
    exact hnew id' b' (hp.usable_iff.1 hb')
  | shared hp => exact .single (.prune hp)
  | @minted t hp hroom hnew =>
    have hroom' : (t.usableIds now).card < maxPushKeyPackages := by rwa [hp.usableIds_eq]
    have hmint : Move now retires t (t.mint now false) := .mint (.inr hroom')
    have husable : (t.mint now false).Usable now t.fresh (.minted t.fresh now false) := by
      refine ⟨by rw [get_mint, if_pos rfl], decide_eq_false ?_, (mem_mint false).2 (.inl rfl),
        rfl⟩
      show ¬now + defaultKeyPackageLifetimeMs ≤ now
      have hpos : 0 < defaultKeyPackageLifetimeMs := by decide
      omega
    refine ((ReflTransGen.single (.prune hp)).tail hmint).tail
      (.claim husable rfl fun id' b' hb' => ?_)
    rcases hmint.usable (hp.sound hs) hb' with hold | ⟨b0, peer', -, -, rfl, hmade, -⟩ | ⟨-, rfl, -⟩
    · exact hnew id' b' (hp.usable_iff.1 hold)
    · exact absurd (congrArg fresh hmade) (Nat.succ_ne_self _)
    · exact nofun

omit h in
lemma Assigned.moves (h : Assigned now handed withdrawn s₀)
    (hm : ReflTransGen (Move now retires) s₀ s) : Assigned now handed withdrawn s := by
  induction hm with
  | refl => exact h
  | tail _ hlast ih => exact ih.move hlast

omit h in
lemma usable_moves (h : Assigned now handed withdrawn s₀)
    (hm : ReflTransGen (Move now retires) s₀ s) {id}
    (hb : s₀.Usable now id b) (hassigned : b.assignedPeer ≠ none) (hid : ¬retires id) :
    s.Usable now id b := by
  induction hm with
  | refl => exact hb
  | tail hfirst hlast ih => exact hlast.keeps (h.moves hfirst).toSound ih hassigned hid

lemma Handing.same (ha : Assigned now handed withdrawn s₀)
    {id} (hb : s₀.Usable now id b) (hpeer : b.assignedPeer = some peer) : push = ⟨b, false⟩ := by
  cases h with
  | own _ hb' hpeer' =>
    obtain rfl := ha.apart _ _ _ _ peer hb hb' hpeer hpeer'
    rw [some.inj (hb.recorded.symm.trans hb'.recorded)]
  | claimed _ _ _ hnew => exact absurd hpeer (hnew id b hb)
  | shared _ _ _ hnone => exact absurd hpeer (hnone id b hb).2
  | minted _ _ hnew => exact absurd hpeer (hnew id b hb)

end

end KeyPool

end OfflineProtocol
