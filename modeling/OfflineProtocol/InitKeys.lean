import OfflineProtocol.KeyPackageScan
import OfflineProtocol.EventTrace

/-! No private init key is left behind. -/
namespace OfflineProtocol
open KeyedTable FaultySchedule EventTrace
open Interruption (Fault Part Outcome)

structure PoolStep where
  command : PoolCommand
  now : ℕ
  schedule : Schedule PoolOp

structure PoolRun where
  pool : KeyPool
  now : ℕ

namespace PoolRun

def start : PoolRun := ⟨.empty, 0⟩

def apply (host : PoolHost) (r : PoolRun) (step : PoolStep) : PoolRun :=
  ⟨(step.command.perform host step.now step.schedule ⟨r.pool, []⟩).2.durable, step.now⟩

/-- Time does not go back, and a failed call has no effect. -/
def enabled (r : PoolRun) (step : PoolStep) : Prop :=
  r.now ≤ step.now ∧ step.schedule.Within fun _ fault => fault ≠ .failed true

def machine (host : PoolHost) : Machine PoolRun PoolStep := ⟨apply host, enabled⟩

end PoolRun

def KeyPackageBundle.unused (b : KeyPackageBundle) : Bool := !b.synced && b.assignedPeer.isNone

def mintsWhole : PoolOp → Fault → Prop
  | .findKey _, .failed _ => False
  | .writeKey _, .cut true => False
  | .store b, .failed _ => b.unused = false
  | .store b, .cut false => b.unused = false
  | _, _ => True

def PoolStep.Whole (_ : PoolRun) (step : PoolStep) : Prop := step.schedule.Within mintsWhole

namespace KeyPool
variable {now : ℕ} {s s₀ : KeyPool} {id : PackageId} {spent : PackageId → Prop}

structure Tended (now : ℕ) (spent : PackageId → Prop) (s₀ s : KeyPool) : Prop extends Sound s where
  named : s.Named
  kept : ∀ id ∈ s₀.initKeys, id ∈ s.initKeys ∨ s₀.PastGrace now id ∨ spent id
  grown : s₀.fresh ≤ s.fresh

lemma Pruned.tended (h : Pruned now s₀ s) (hs : s₀.Sound) (hn : s₀.Named) :
    Tended now spent s₀ s where
  toSound := h.sound hs
  named := h.named hn
  kept id hin := (h.spent id hin).imp_right .inl
  grown := h.fresh.ge

section
variable (h : Tended now spent s₀ s)
include h

lemma Tended.store (hb : b.packageId < s.fresh) : Tended now spent s₀ (effect (.store b) s) where
  toSound := h.toSound.store hb
  named id hin := (AList.mem_insert _).2 (.inr (h.named id hin))
  kept := h.kept
  grown := h.grown

lemma Tended.spend (hid : spent id) : Tended now spent s₀ (effect (.deleteKey id) s) where
  toSound := h.toSound.spend
  named id' hin := h.named id' (Finset.mem_of_mem_erase hin)
  kept id' hin := by
    rcases h.kept id' hin with hkept | hgone
    · by_cases heq : id' = id
      · rw [heq]
        exact .inr (.inr hid)
      · exact .inl (Finset.mem_erase.2 ⟨heq, hkept⟩)
    · exact .inr hgone
  grown := h.grown

lemma Tended.forget (hkey : id ∉ s.initKeys) : Tended now spent s₀ (effect (.delete id) s) where
  toSound := h.toSound.forget id
  named id' hin := mem_erase_iff.2 ⟨fun heq => hkey (heq ▸ hin), h.named id' hin⟩
  kept := h.kept
  grown := h.grown

lemma Tended.mint : Tended now spent s₀ (s.mint now reserved) where
  toSound := h.toSound.mint
  named id hin := by
    rcases (mem_mint reserved).1 hin with heq | hold
    · exact (AList.mem_insert _).2 (.inl heq)
    · exact (AList.mem_insert _).2 (.inr (h.named id hold))
  kept id hin := (h.kept id hin).imp_left fun hkept => Finset.mem_insert_of_mem hkept
  grown := h.grown.trans (Nat.le_succ _)

lemma Tended.counted : Tended now spent s₀ { s with fresh := s.fresh + 1 } where
  filed := h.filed
  recorded id hin := (h.recorded id hin).trans (Nat.lt_succ_self _)
  held id hin := (h.held id hin).trans (Nat.lt_succ_self _)
  named := h.named
  kept := h.kept
  grown := h.grown.trans (Nat.le_succ _)

end

lemma sound_empty : empty.Sound where
  filed id b h := by
    have hnone : get (∅ : Table PackageId KeyPackageBundle) id = none := rfl
    exact absurd (hnone.symm.trans h) (Option.some_ne_none b).symm
  recorded id h := absurd h (AList.notMem_empty id)
  held id h := absurd h (Finset.notMem_empty id)

lemma handable_made (h : s.Sound) (hin : b ∈ s.handable host now) : b.packageId < s.fresh := by
  obtain ⟨id, -, hlive⟩ := List.mem_filterMap.1 (List.mem_filter.1 hin).1
  obtain ⟨hid, hlt⟩ := h.live_made hlive
  exact hid.symm ▸ hlt

end KeyPool

open KeyPool

section
variable {allowed : PoolOp → Fault → Prop} {now : ℕ} {s₀ : KeyPool} {spent : PackageId → Prop}
  {host : PoolHost} (hclean : CleanFailures allowed)
    (hwhole : ∀ op f, allowed op f → mintsWhole op f)
omit hclean in
include hwhole in
lemma findable : KeysFindable allowed := fun _ _ hall => hwhole _ _ hall

include hclean

lemma purge_tended {id} (hid : spent id) :
    Maintains allowed (Tended now spent s₀) (purgeKeyPackageMaterial id) :=
  purge_spec hclean (fun _ hs => hs) (fun _ hs => hs.spend hid) fun _ hs hgone => hs.forget hgone

lemma store_tended (hb : b.packageId < s₀.fresh) :
    Maintains allowed (Tended now spent s₀) (poolCall (.store b)) :=
  poolCall_keeps (I := Tended now spent s₀) hclean fun _ hs => hs.store (hb.trans_le hs.grown)

include hwhole

lemma generate_tended :
    Spec allowed (fun p => Tended now spent s₀ p.durable) (generateKeyPackage now reserved)
      (fun b p => Tended now spent s₀ p.durable ∧ b.packageId < p.durable.fresh)
      (fun _ p => Tended now spent s₀ p.durable) fun p => Tended now spent s₀ p.durable := by
  refine .observe fun id => ?_
  refine .bind (Q := fun _ p => ∃ s, Tended now spent s₀ s ∧ id = s.fresh ∧
    p.durable = { s with fresh := s.fresh + 1 }) (.update fun p hp =>
      ⟨p.durable, hp.1, hp.2.symm, rfl⟩) fun _ => ?_
  -- The init key is there for a moment without its record.
  refine .bind (Q := fun _ p => ∃ s, Tended now spent s₀ s ∧ id = s.fresh ∧
    p.durable = effect (.writeKey id) { s with fresh := s.fresh + 1 }) ?_ fun _ => ?_
  · refine poolCall_spec (I := fun t => ∃ s, Tended now spent s₀ s ∧ id = s.fresh ∧ t =
      { s with fresh := s.fresh + 1 })
      (Q := fun t => ∃ s, Tended now spent s₀ s ∧ id = s.fresh ∧
        t = effect (.writeKey id) { s with fresh := s.fresh + 1 })
      (E := Tended now spent s₀) (K := Tended now spent s₀) hclean ?_ ?_ ?_
    · rintro t ⟨s, hs, hid, rfl⟩
      exact ⟨s, hs, hid, rfl⟩
    · rintro - t ⟨s, hs, -, rfl⟩
      exact hs.counted
    rintro applied hall t ⟨s, hs, -, rfl⟩
    cases applied with
    | false => exact hs.counted
    | true => exact absurd (hwhole _ _ hall) (by simp [mintsWhole])
  · refine .bind (Q := fun _ p => Tended now spent s₀ p.durable ∧ id < p.durable.fresh) ?_
      fun _ => .pure fun p hp => hp
    refine poolCall_spec (I := fun t => ∃ s, Tended now spent s₀ s ∧ id = s.fresh ∧
        t = effect (.writeKey id) { s with fresh := s.fresh + 1 })
      (Q := fun t => Tended now spent s₀ t ∧ id < t.fresh)
      (E := Tended now spent s₀) (K := Tended now spent s₀) hclean ?_ ?_ ?_
    · rintro t ⟨s, hs, rfl, rfl⟩
      exact ⟨hs.mint, Nat.lt_succ_self _⟩
    · intro hall
      have := hwhole _ _ hall
      simp [mintsWhole, KeyPackageBundle.unused, KeyPackageBundle.minted] at this
    rintro applied hall t ⟨s, hs, rfl, rfl⟩
    cases applied with
    | true => exact hs.mint
    | false =>
      have := hwhole _ _ hall
      simp [mintsWhole, KeyPackageBundle.unused, KeyPackageBundle.minted] at this

lemma generateEach_tended (n) :
    Maintains allowed (Tended now spent s₀) (generateKeyPackages now n) := by
  induction n with
  | zero => exact .skip
  | succ n ih =>
    exact .bind (generate_tended hclean hwhole) fun _ =>
      ih.pre fun _ hp => hp.1

omit hclean hwhole in
lemma noted_mem {usable : List KeyPackageBundle} {scan : PoolScan}
    (h : (usable.foldl (fun scan bundle => scan.note peer bundle) scan).unclaimed = some b) :
    b ∈ usable ∨ scan.unclaimed = some b := by
  induction usable generalizing scan with
  | nil => exact .inr h
  | cons x xs ih =>
    rcases ih h with hin | hstart
    · exact .inl (List.mem_cons_of_mem x hin)
    simp only [PoolScan.note] at hstart
    split_ifs at hstart
    · rw [← Option.some.inj hstart]
      exact .inl (.head _)
    · exact .inr hstart

lemma handOut_tended {peer} (hscan : ∀ b, scan.unclaimed = some b → b.packageId < s₀.fresh) :
    Maintains allowed (Tended now spent s₀) (handOut now peer scan) := by
  have hmint : Maintains allowed (Tended now spent s₀) (do
        let bundle ← generateKeyPackage now false
        let claimed ← claimKeyPackage bundle peer
        pure (⟨claimed, false⟩ : PushKeyPackage)) := by
    refine .bind (generate_tended hclean hwhole) fun b => ?_
    have hstore : Spec allowed
        (fun p => Tended now spent s₀ p.durable ∧ b.packageId < p.durable.fresh)
        (poolCall (.store { b with assignedPeer := some peer }))
        (fun _ p => Tended now spent s₀ p.durable) (fun _ p => Tended now spent s₀ p.durable)
        fun p => Tended now spent s₀ p.durable := by
      refine poolCall_spec (I := fun s => Tended now spent s₀ s ∧ b.packageId < s.fresh)
        (Q := Tended now spent s₀) (E := Tended now spent s₀) (K := Tended now spent s₀) hclean
        (fun s hs => hs.1.store hs.2) (fun _ s hs => hs.1) fun applied _ s hs => ?_
      cases applied
      · exact hs.1
      · exact hs.1.store hs.2
    exact .bind (.bind hstore fun _ => .skip) fun _ =>
      .skip
  unfold handOut
  split
  · exact .skip
  · rename_i bundle _ hunclaimed
    exact .bind (.bind (store_tended hclean (hscan bundle hunclaimed)) fun _ =>
      .skip) fun _ => .skip
  · exact .skip
  · exact hmint

/-- Every command keeps init keys named, and spends none but those it is meant to or that
are past their grace. -/
lemma perform_tended (hs : s₀.Sound) (hn : s₀.Named) {command : PoolCommand} :
    Spec allowed (fun p => p.durable = s₀) (command.perform host now)
      (fun _ p => Tended now (fun id => command.spends id = true) s₀ p.durable)
      (fun _ p => Tended now (fun id => command.spends id = true) s₀ p.durable)
      fun p => Tended now (fun id => command.spends id = true) s₀ p.durable := by
  have hfind := findable hwhole
  have hpruned {spent : PackageId → Prop} (p : Part KeyPool PoolOp)
      (hp : Pruned now s₀ p.durable) : Tended now spent s₀ p.durable := hp.tended hs hn
  have hstart {spent : PackageId → Prop} (p : Part KeyPool PoolOp) (hp : p.durable = s₀) :
      Tended now spent s₀ p.durable := by
    rw [hp]
    exact Pruned.refl.tended hs hn
  cases command with
  | take peer =>
    refine .bind (scan_then hclean hfind ((handOut_tended hclean hwhole
      fun b hb => ?_).pre hpruned)
      (fun _ => hpruned) hpruned) fun _ => .skip
    rcases noted_mem hb with hin | hnone
    · exact handable_made hs hin
    · cases hnone
  | ensureMin min =>
    exact .bind (scan_then hclean hfind (.bind ((generateEach_tended hclean hwhole
      _).pre hpruned) fun _ =>
      .skip) (fun _ => hpruned) hpruned) fun _ => .skip
  | publish =>
    exact .bind ((generate_tended hclean hwhole).pre hstart) fun _ => .pure fun _ hp => hp.1
  | pending =>
    exact .bind (scan_then hclean hfind (.pure hpruned) (fun _ => hpruned) hpruned) fun _ => .skip
  | markSynced id =>
    refine .bind ((load_pruned hclean hfind).mono (fun p hp => ?_) (fun _ _ hp => hp)
      (fun _ => hpruned) hpruned) fun found => ?_
    · rw [hp]
      exact .refl
    refine .given (φ := found = s₀.liveBundle now id) (fun _ hp => hp.2) fun hfound => ?_
    cases found with
    | none => exact .pure fun p hp => hpruned p hp.1
    | some b =>
      dsimp only
      obtain ⟨hid, hlt⟩ := hs.live_made hfound.symm
      have hmade : b.packageId < s₀.fresh := hid.symm ▸ hlt
      split
      · exact .pure fun p hp => hpruned p hp.1
      · exact (store_tended hclean (b := { b with synced := true }) hmade).pre fun p hp => hpruned p hp.1
  | delete id =>
    have hid : PoolCommand.spends id (.delete id) = true := decide_eq_true rfl
    refine .bind ((look_pruned hclean (fun _ => rfl) _).pre hstart) fun _ => ?_
    refine .peek fun found => ?_
    cases found with
    | none => exact .skip
    | some _ => exact purge_tended hclean hid
  | welcome id =>
    have hid : PoolCommand.spends id (.welcome id) = true := decide_eq_true rfl
    exact (poolCall_keeps (I := Tended now _ s₀) hclean fun _ ht => ht.spend hid).pre hstart

end

section
variable {now : ℕ} {s₀ s : KeyPool} {id : PackageId} {host : PoolHost}

lemma purge_destroys :
    Spec allDone P (purgeKeyPackageMaterial id) (fun _ p => id ∉ p.durable.initKeys)
      (fun _ _ => False) fun _ => False := by
  refine .known (J := fun p => id ∉ p.durable.initKeys) (.attempt (.operate
    (fun p _ _ => ⟨Finset.notMem_erase id _, rfl⟩) (fun _ _ hall _ => by cases hall)
    fun _ _ hall _ => by cases hall)) ?_
  have hkeep (s : KeyPool) (hs : id ∉ s.initKeys) : id ∉ (effect (.delete id) s).initKeys := hs
  exact (Finishes.call _).spec (poolCall_keeps (I := fun s => id ∉ s.initKeys) allDone_clean hkeep)

lemma load_destroys : Spec allDone (fun p => p.durable = s) (loadStoredKeyPackage now id)
      (fun _ p => s.PastGrace now id → id ∉ p.durable.initKeys) (fun _ _ => False)
      fun _ => False := by
  by_cases hpast : s.PastGrace now id
  · obtain ⟨b, hget, hgrace⟩ := hpast
    refine .bind (Q := fun _ p => p.durable = s) ((Finishes.call _).spec
      (look_pruned allDone_clean (fun _ => rfl) fun t => t = s)) fun _ => ?_
    refine .consult (a := some b) (fun p hp => by rw [hp, hget]) ?_
    dsimp only
    rw [if_pos (expired_of_pastGrace hgrace), if_pos hgrace]
    exact .bind purge_destroys fun _ => .pure fun _ hp _ => hp
  · exact (Finishes.loadStoredKeyPackage id).conseq (fun _ _ => trivial)
      (fun _ _ _ hgrace => absurd hgrace hpast)

lemma usable_destroys (hn : s.Named) {ids} :
    Spec allDone (fun p => p.durable = s) (usablePackages now ids)
      (fun _ p => Pruned now s p.durable ∧
        ∀ id ∈ ids, s.PastGrace now id → id ∉ p.durable.initKeys) (fun _ _ => False)
      fun _ => False := by
  induction ids generalizing s with
  | nil =>
    refine .pure fun p hp => ⟨?_, nofun⟩
    rw [hp]
    exact .refl
  | cons id ids ih =>
    have hload : Spec allDone (fun p => p.durable = s) (loadStoredKeyPackage now id)
        (fun _ p => Pruned now s p.durable ∧ (s.PastGrace now id → id ∉ p.durable.initKeys))
        (fun _ _ => False) fun _ => False :=
      ((load_pruned allDone_clean allDone_findable).and load_destroys).mono
        (fun p hp => ⟨hp ▸ .refl, hp⟩) (fun _ _ hp => ⟨hp.1.1, hp.2⟩)
        (fun _ _ hp => hp.2) fun _ hp => hp.2
    refine .bind hload fun _ => ?_
    refine (Spec.named (I := fun t p => (Pruned now s t ∧ (s.PastGrace now id → id ∉ t.initKeys)) ∧
      p.durable = t) fun t => ?_).pre fun p hp => ⟨p.durable, hp, rfl⟩
    refine Spec.given (φ := _) (fun _ hp => hp.1) fun ⟨hpruned, hid⟩ => ?_
    refine .bind ((ih (hpruned.named hn)).pre fun _ hp => hp.2) fun _ => ?_
    refine .pure fun p hp => ⟨hpruned.trans hp.1, ?_⟩
    intro id' hin hpast
    rcases List.mem_cons.1 hin with rfl | hrest
    · exact fun hkey => hid hpast (hp.1.keys hkey)
    -- A record that the rest of the scan no longer meets went without its init key.
    by_cases hrec : id' ∈ t.records
    · exact hp.2 id' hrest (hpruned.pastGrace hpast hrec)
    · exact fun hkey => hrec (hpruned.named hn id' (hp.1.keys hkey))

end

section
variable {allowed : PoolOp → Fault → Prop} {now : ℕ} {x : PackageId}
  (hclean : CleanFailures allowed)

def KeyPool.Absent (x : PackageId) (s : KeyPool) : Prop := x ∉ s.initKeys ∧ x < s.fresh

include hclean

lemma store_absent {b} : Maintains allowed (KeyPool.Absent x) (poolCall (.store b)) :=
  poolCall_keeps (I := KeyPool.Absent x) hclean fun _ => id

lemma generate_absent :
    Maintains allowed (KeyPool.Absent x) (generateKeyPackage now reserved) := by
  refine .bind (Q := fun id p => p.durable.Absent x ∧ x < id) (.read fun p hp =>
    ⟨hp, hp.2⟩) fun id => ?_
  refine .given (φ := x < id) (fun _ hp => hp.2) fun hid => ?_
  refine .bind (Q := fun _ p => p.durable.Absent x) (.update fun p hp =>
    ⟨hp.1.1, hp.1.2.trans (Nat.lt_succ_self _)⟩) fun _ => ?_
  refine .bind (poolCall_keeps (I := KeyPool.Absent x) hclean fun s hs => ⟨?_, hs.2⟩)
    fun _ => .bind (store_absent hclean) fun _ => .skip
  show x ∉ insert id s.initKeys
  simp [hid.ne, hs.1]

lemma generateEach_absent (n) :
    Maintains allowed (KeyPool.Absent x) (generateKeyPackages now n) := by
  induction n with
  | zero => exact .skip
  | succ n ih => exact .bind (generate_absent hclean) fun _ => ih

lemma handOut_absent :
    Maintains allowed (KeyPool.Absent x) (handOut now peer scan) := by
  have hclaim (b : KeyPackageBundle) : Maintains allowed (KeyPool.Absent x) (do
        let claimed ← claimKeyPackage b peer
        pure (⟨claimed, false⟩ : PushKeyPackage)) :=
    .bind (.bind (store_absent hclean) fun _ => .skip) fun _ =>
      .skip
  unfold handOut
  split
  · exact .skip
  · exact hclaim _
  · exact .skip
  · exact .bind (generate_absent hclean) hclaim

end

/-- A command that goes over all records, with no call failing, destroys every init key
whose package expired a grace period ago. -/
lemma perform_destroys {now : ℕ}
    (hs : s₀.Sound) (hn : s₀.Named) {command : PoolCommand} (hscan : command.scans = true)
    (hx : s₀.PastGrace now x) :
    Spec allDone (fun p => p.durable = s₀) (command.perform host now)
      (fun _ p => p.durable.Absent x) (fun _ p => p.durable.Absent x)
      fun p => p.durable.Absent x := by
  have hrec : x ∈ s₀.records := by
    obtain ⟨b, hget, -⟩ := hx
    exact mem_of_get hget
  have hthen {α : Type} {f : List KeyPackageBundle → PoolM α}
      (hf : ∀ usable, Maintains allDone (KeyPool.Absent x) (f usable)) :
      Spec allDone (fun p => p.durable = s₀) (do
          let ids ← listKeyPackages host
          let usable ← usablePackages now ids
          f usable)
        (fun _ p => p.durable.Absent x) (fun _ p => p.durable.Absent x)
        fun p => p.durable.Absent x := by
    refine .bind (Q := fun ids p => p.durable = s₀ ∧ ids = host.listing s₀.records.keys)
      ?_ fun ids => ?_
    · exact .bind (Q := fun _ p => p.durable = s₀) ((Finishes.call _).spec
        (look_pruned allDone_clean (fun _ => rfl) fun t => t = s₀)) fun _ =>
        .read fun p hp => ⟨hp, by rw [hp]⟩
    refine .given (φ := ids = host.listing s₀.records.keys) (fun _ hp => hp.2) fun hids => ?_
    refine .bind (Q := fun _ p => p.durable.Absent x) ((usable_destroys hn).mono
      (fun _ hp => hp.1) (fun _ p hp => ⟨hp.2 x ?_ hx, ?_⟩) (fun _ _ hp => hp.elim)
      fun _ hp => hp.elim) hf
    · rw [hids]
      exact (host.listing_perm _).mem_iff.2 hrec
    rw [hp.1.fresh]
    exact hs.recorded x hrec
  cases command with
  | take peer =>
    exact .bind (hthen fun _ => handOut_absent allDone_clean) fun _ =>
      .skip
  | ensureMin min =>
    exact .bind (hthen fun _ => .bind (generateEach_absent allDone_clean _) fun _ =>
      .skip) fun _ => .skip
  | pending =>
    exact .bind (hthen fun _ => .skip) fun _ => .skip
  | publish => cases hscan
  | markSynced id => cases hscan
  | delete id => cases hscan
  | welcome id => cases hscan

lemma left_of_spec {α : Type} {m : PoolM α} {P R : KeyPool → Prop}
    (h : Spec allowed (fun p => P p.durable) m (fun _ p => R p.durable) (fun _ p => R p.durable)
      fun p => R p.durable) (hall : schedule.Within allowed) (hs : P s) :
    R (m schedule ⟨s, []⟩).2.durable := by
  have hm := h schedule hall ⟨s, []⟩ hs
  cases hr : m schedule ⟨s, []⟩ with
  | mk out s' =>
    rw [hr] at hm
    cases out <;> exact hm

namespace PoolRun
variable {host : PoolHost} {r : PoolRun} {step : PoolStep}

lemma apply_tended (hs : r.pool.Sound) (hn : r.pool.Named) (he : enabled r step)
    (hc : PoolStep.Whole r step) :
    Tended step.now (fun id => step.command.spends id = true) r.pool (apply host r step).pool :=
  have hwith : step.schedule.Within fun op fault => fault ≠ .failed true ∧ mintsWhole op fault :=
    fun op n => ⟨he.2 op n, hc op n⟩
  left_of_spec (P := fun s => s = r.pool) (perform_tended (fun _ h => h.1 rfl) (fun _ _ h => h.2)
    hs hn) hwith rfl

end PoolRun

/-- Between operations every init key is named by a record, and it is destroyed by the first
scan that meets no failure once its package expired a grace period ago, and not before
unless it is deleted or used by a Welcome. -/
theorem init_keys_named {host : PoolHost} {steps : List PoolStep} {r : PoolRun}
    (h : (PoolRun.machine host).Runs .start steps r)
    (hwhole : (PoolRun.machine host).Along PoolStep.Whole .start steps) :
    (∀ id ∈ r.pool.initKeys, id ∈ r.pool.records) ∧
      (∀ step, PoolRun.enabled r step → step.command.scans = true →
        step.schedule.Within allDone → ∀ id b, get r.pool.records id = some b →
        b.expiredPastGrace step.now = true → id ∉ (PoolRun.apply host r step).pool.initKeys) ∧
      ∀ step, PoolRun.enabled r step → PoolStep.Whole r step → ∀ id ∈ r.pool.initKeys,
        id ∉ (PoolRun.apply host r step).pool.initKeys →
        (∃ b, get r.pool.records id = some b ∧ b.expiredPastGrace step.now = true) ∨
          step.command = .delete id ∨ step.command = .welcome id := by
  have hinv : r.pool.Sound ∧ r.pool.Named := by
    refine h.invariant (I := fun r => r.pool.Sound ∧ r.pool.Named) (fun r step hr he hc => ?_)
      hwhole ?_
    · have ht := @PoolRun.apply_tended host _ _ hr.1 hr.2 he hc
      exact ⟨ht.toSound, ht.named⟩
    · exact ⟨sound_empty, fun _ h => absurd h (Finset.notMem_empty _)⟩
  refine ⟨hinv.2, ?_, ?_⟩
  · intro step _ hscan hdone id b hget hgrace
    exact (left_of_spec (P := fun s => s = r.pool) (perform_destroys hinv.1 hinv.2 hscan
      ⟨b, hget, hgrace⟩) hdone rfl).1
  intro step he hc id hin hgone
  have ht := @PoolRun.apply_tended host _ _ hinv.1 hinv.2 he hc
  rcases ht.kept id hin with hkept | hpast | hspent
  · exact absurd hkept hgone
  · exact .inl hpast
  · exact .inr (PoolCommand.spends_iff.1 hspent)

def PoolStep.sound (command : PoolCommand) (now : ℕ) : PoolStep := ⟨command, now, fun _ _ => .done⟩

def PoolStep.twoMints : List PoolStep := [.sound (.take 7) 0, .sound .publish 5]

theorem init_keys_named_two :
    let r := (PoolRun.machine filedHost).replay .start PoolStep.twoMints
    (∀ id ∈ r.pool.initKeys, id ∈ r.pool.records) ∧ 1 ∈ r.pool.initKeys ∧
      1 ∉ (PoolRun.apply filedHost r (.sound .pending 3196800005)).pool.initKeys := by
  have henabled : (PoolRun.machine filedHost).Along PoolRun.enabled .start PoolStep.twoMints :=
    ⟨⟨by decide, nofun⟩, ⟨by decide, nofun⟩, trivial⟩
  have hwhole : (PoolRun.machine filedHost).Along PoolStep.Whole .start PoolStep.twoMints := by
    refine Machine.along_of_forall fun step hstep r op n => ?_
    have hdone : step.schedule op n = .done := by
      rcases List.mem_cons.1 hstep with rfl | hstep
      · rfl
      rw [List.mem_singleton.1 hstep]
      rfl
    rw [hdone]
    cases op <;> trivial
  obtain ⟨hnamed, hscan, -⟩ := init_keys_named (r := (PoolRun.machine filedHost).replay .start
    PoolStep.twoMints) ⟨rfl, henabled⟩ hwhole
  refine ⟨hnamed, by decide +kernel, hscan (.sound .pending 3196800005)
    ⟨by decide +kernel, nofun⟩ rfl (fun _ _ => rfl) 1
    (.minted 1 5 true) (by decide +kernel) (by decide +kernel)⟩

def PoolStep.recordFails : PoolStep :=
  ⟨.take 7, 0, fun op _ => if op = .store (.minted 0 0 false) then .failed false else .done⟩

/-- The library fails to look for an init key that it holds. -/
def PoolStep.lookupFails : PoolStep :=
  ⟨.pending, 0, fun op _ => if op = .findKey 0 then .failed false else .done⟩

/-- Each leaves an init key that no record names. -/
theorem init_key_orphaned :
    (∃ r, (PoolRun.machine filedHost).Runs .start [.recordFails] r ∧
      0 ∈ r.pool.initKeys ∧ 0 ∉ r.pool.records) ∧
    ∃ r, (PoolRun.machine filedHost).Runs .start [.sound .publish 0, .lookupFails] r ∧
      0 ∈ r.pool.initKeys ∧ 0 ∉ r.pool.records := by
  refine ⟨⟨_, ⟨rfl, ⟨by decide, fun op n => ?_⟩, trivial⟩, by decide +kernel, by decide +kernel⟩,
    ⟨_, ⟨rfl, ⟨by decide, nofun⟩, ⟨by decide, fun op n => ?_⟩, trivial⟩,
      by decide +kernel, by decide +kernel⟩⟩
  · unfold PoolStep.recordFails
    dsimp only
    split_ifs <;> simp
  unfold PoolStep.lookupFails
  dsimp only
  split_ifs <;> simp

end OfflineProtocol
