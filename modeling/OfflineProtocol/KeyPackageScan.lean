import OfflineProtocol.KeyPackagePool

/-! What a scan of the key packages finds and what it prunes, whichever calls fail on the
way: every package that can still be used is found and kept, and an init key goes only
when its package expired a grace period ago. -/
namespace OfflineProtocol
open KeyedTable FaultySchedule Option
open Interruption (Fault Part Outcome)

def CleanFailures (allowed : PoolOp → Fault → Prop) : Prop := ∀ op, ¬allowed op (.failed true)

def KeysFindable (allowed : PoolOp → Fault → Prop) : Prop := ∀ id f, ¬allowed (.findKey id)
    (.failed f)

section
variable {allowed : PoolOp → Fault → Prop} {I Q E K : KeyPool → Prop} {op : PoolOp}

lemma poolCall_spec (hclean : CleanFailures allowed) (hdone : ∀ s, I s → Q (KeyPool.effect op s))
    (hfailed : allowed op (.failed false) → ∀ s, I s → E s)
    (hcut : ∀ b, allowed op (.cut b) → ∀ s, I s → K (if b then KeyPool.effect op s else s)) :
    Spec allowed (fun p => I p.durable) (poolCall op) (fun _ p => Q p.durable)
      (fun _ p => E p.durable) fun p => K p.durable := by
  refine .operate (fun p _ hp => hdone _ hp) (fun p b hall hp => ?_) fun p b hall hp => ?_
  · cases b with
    | true => exact absurd hall (hclean op)
    | false => exact hfailed hall _ hp
  have h := hcut b hall _ hp
  cases b <;> exact h

lemma poolCall_keeps (hclean : CleanFailures allowed)
    (hkeep : ∀ s, I s → I (KeyPool.effect op s)) : Maintains allowed I (poolCall op) := by
  refine poolCall_spec hclean hkeep (fun _ _ => id) fun b _ s hs => ?_
  cases b
  · exact hs
  · exact hkeep s hs

end

namespace KeyPool
variable {now : ℕ} {s s₀ : KeyPool} {id : PackageId}

def liveBundle (s : KeyPool) (now : ℕ) (id : PackageId) : Option KeyPackageBundle :=
  (get s.records id).filter fun b => !b.isExpired now && decide (id ∈ s.initKeys)

def PastGrace (s : KeyPool) (now : ℕ) (id : PackageId) : Prop :=
  ∃ b, get s.records id = some b ∧ b.expiredPastGrace now = true

def Named (s : KeyPool) : Prop := ∀ id ∈ s.initKeys, id ∈ s.records

/-- A record is filed under its package, and identifiers come from the counter. -/
structure Sound (s : KeyPool) : Prop where
  filed : ∀ id b, get s.records id = some b → b.packageId = id
  recorded : ∀ id ∈ s.records, id < s.fresh
  held : ∀ id ∈ s.initKeys, id < s.fresh

structure Pruned (now : ℕ) (s₀ s : KeyPool) : Prop where
  records : ∀ id b, get s.records id = some b → get s₀.records id = some b
  keys : s.initKeys ⊆ s₀.initKeys
  live : ∀ id, s.liveBundle now id = s₀.liveBundle now id
  spent : ∀ id ∈ s₀.initKeys, id ∈ s.initKeys ∨ s₀.PastGrace now id
  named : s₀.Named → s.Named
  fresh : s.fresh = s₀.fresh

lemma liveBundle_eq_some : s.liveBundle now id = some b ↔
      get s.records id = some b ∧ b.isExpired now = false ∧ id ∈ s.initKeys := by
  unfold liveBundle
  rw [filter_eq_some_iff]
  simp [Bool.and_eq_true]

lemma Pruned.refl : Pruned now s s :=
  ⟨fun _ _ => id, fun _ => id, fun _ => rfl, fun _ h => .inl h, fun h => h, rfl⟩

section
variable (h : Pruned now s₀ s)
include h

lemma Pruned.dropRecord (hkey : id ∉ s.initKeys) : Pruned now s₀ (effect (.delete id) s) where
  records id' b hget := by
    exact h.records id' b (of_get_erase hget).2
  keys := h.keys
  live id' := by
    rw [← h.live]
    by_cases heq : id' = id
    · -- Neither is usable: the init key is gone.
      subst heq
      simp [liveBundle, effect, hkey]
    have hget : get (effect (.delete id) s).records id' = get s.records id' := by
      show get (s.records.erase id) id' = _
      rw [get_erase_ne heq]
    unfold liveBundle
    rw [hget]
    rfl
  spent := h.spent
  named hs id' hin := by
    have hne : id' ≠ id := fun heq => hkey (heq ▸ hin)
    exact mem_erase_iff.2 ⟨hne, h.named hs id' hin⟩
  fresh := h.fresh

omit h in
lemma expired_of_pastGrace {b : KeyPackageBundle} (h : b.expiredPastGrace now = true) :
    b.isExpired now = true := by
  have hle := of_decide_eq_true h
  exact decide_eq_true (by omega)

lemma Pruned.dropKey {b : KeyPackageBundle}
    (hget : get s.records id = some b) (hgrace : b.expiredPastGrace now = true) :
    Pruned now s₀ (effect (.deleteKey id) s) where
  records := h.records
  keys := fun id' hin => h.keys (Finset.mem_of_mem_erase hin)
  live id' := by
    rw [← h.live]
    by_cases heq : id' = id
    · subst heq
      have hrecord : (effect (.deleteKey id') s).records = s.records := rfl
      simp [liveBundle, hrecord, hget, Option.filter, expired_of_pastGrace hgrace]
    · simp [liveBundle, effect, heq]
  spent id' hin := by
    rcases h.spent id' hin with hkept | hgone
    · by_cases heq : id' = id
      · rw [heq]
        exact .inr ⟨b, h.records id b hget, hgrace⟩
      · exact .inl (Finset.mem_erase.2 ⟨heq, hkept⟩)
    · exact .inr hgone
  named hs id' hin := h.named hs id' (Finset.mem_of_mem_erase hin)
  fresh := h.fresh

lemma Pruned.pastGrace (hpast : s₀.PastGrace now id)
    (hrec : id ∈ s.records) : s.PastGrace now id := by
  obtain ⟨b, hget, hgrace⟩ := hpast
  obtain ⟨b', hget'⟩ := exists_get_of_mem hrec
  have hsame := h.records id b' hget'
  rw [hget] at hsame
  exact ⟨b', hget', some.inj hsame ▸ hgrace⟩

lemma Pruned.trans (h' : Pruned now s s') : Pruned now s₀ s' where
  records id b hget := h.records id b (h'.records id b hget)
  keys := h'.keys.trans h.keys
  live id := (h'.live id).trans (h.live id)
  spent id hin := by
    rcases h.spent id hin with hkept | hgone
    · rcases h'.spent id hkept with hkept' | ⟨b, hget, hgrace⟩
      · exact .inl hkept'
      · exact .inr ⟨b, h.records id b hget, hgrace⟩
    · exact .inr hgone
  named hs := h'.named (h.named hs)
  fresh := h'.fresh.trans h.fresh

lemma Pruned.sound (hs : s₀.Sound) : s.Sound where
  filed id b hget := hs.filed id b (h.records id b hget)
  recorded id hin := by
    obtain ⟨b, hget⟩ := exists_get_of_mem hin
    rw [h.fresh]
    exact hs.recorded id (mem_of_get (h.records id b hget))
  held id hin := by
    rw [h.fresh]
    exact hs.held id (h.keys hin)

end

variable {b : KeyPackageBundle}

def mint (now : ℕ) (reserved : Bool) (s : KeyPool) : KeyPool :=
  effect (.store (.minted s.fresh now reserved))
    (effect (.writeKey s.fresh) { s with fresh := s.fresh + 1 })

lemma get_mint (reserved) : get (s.mint now reserved).records id =
    if id = s.fresh then some (.minted s.fresh now reserved) else get s.records id :=
  get_insert

lemma get_store : get (effect (.store b) s).records id =
    if id = b.packageId then some b else get s.records id :=
  get_insert

lemma mem_mint (reserved) : id ∈ (s.mint now reserved).initKeys ↔
    id = s.fresh ∨ id ∈ s.initKeys :=
  Finset.mem_insert

lemma Sound.store (h : s.Sound) (hb : b.packageId < s.fresh) : (effect (.store b) s).Sound where
  filed id b' hget := by
    rw [get_store] at hget
    split_ifs at hget with heq
    · rw [heq, some.inj hget]
    · exact h.filed id b' hget
  recorded id hin := by
    rcases (AList.mem_insert _).1 hin with heq | hold
    · rw [heq]
      exact hb
    · exact h.recorded id hold
  held := h.held

lemma Sound.mint (h : s.Sound) {reserved} : (s.mint now reserved).Sound where
  filed id b' hget := by
    rw [get_mint] at hget
    split_ifs at hget with heq
    · rw [heq, ← some.inj hget]
      rfl
    · exact h.filed id b' hget
  recorded id hin := by
    rcases (AList.mem_insert _).1 hin with heq | hold
    · rw [heq]
      exact Nat.lt_succ_self _
    · exact (h.recorded id hold).trans (Nat.lt_succ_self _)
  held id hin := by
    rcases (mem_mint reserved).1 hin with heq | hold
    · rw [heq]
      exact Nat.lt_succ_self _
    · exact (h.held id hold).trans (Nat.lt_succ_self _)

lemma Sound.live_made (h : s.Sound) (hlive : s.liveBundle now id = some b) :
    b.packageId = id ∧ id < s.fresh := by
  have hget := (liveBundle_eq_some.1 hlive).1
  exact ⟨h.filed id b hget, h.recorded id (mem_of_get hget)⟩

lemma Sound.spend (h : s.Sound) {id} : (effect (.deleteKey id) s).Sound :=
  ⟨h.filed, h.recorded, fun id' hin => h.held id' (Finset.mem_of_mem_erase hin)⟩

lemma Sound.forget (h : s.Sound) (id) : (effect (.delete id) s).Sound where
  filed id' b hget := by
    exact h.filed id' b (of_get_erase hget).2
  recorded id' hin := h.recorded id' (mem_erase_iff.1 hin).2
  held := h.held

end KeyPool

open KeyPool

section
variable {allowed : PoolOp → Fault → Prop} {now : ℕ} {s₀ : KeyPool}
  (hclean : CleanFailures allowed) (hfind : KeysFindable allowed)
include hclean

lemma look_pruned (hop : ∀ s, effect op s = s) (R) : Maintains allowed R (poolCall op) :=
  poolCall_keeps hclean fun s hs => by rw [hop]; exact hs

/-- Destroying a package: its init key goes first, and its record only once the key is
gone. -/
lemma purge_spec {id} {I R : KeyPool → Prop} (hI : ∀ s, I s → R s)
    (hkey : ∀ s, I s → R (effect (.deleteKey id) s))
    (hrec : ∀ s, R s → id ∉ s.initKeys → R (effect (.delete id) s)) :
    Spec allowed (fun p => I p.durable) (purgeKeyPackageMaterial id) (fun _ p => R p.durable)
      (fun _ p => R p.durable) fun p => R p.durable := by
  have hspend : Spec allowed (fun p => I p.durable) (poolCall (.deleteKey id))
      (fun _ p => R p.durable ∧ id ∉ p.durable.initKeys) (fun _ p => R p.durable)
      fun p => R p.durable := by
    refine poolCall_spec (Q := fun s => R s ∧ id ∉ s.initKeys) (E := R) (K := R) hclean
      (fun s hs => ⟨hkey s hs, Finset.notMem_erase id _⟩) (fun _ s hs => hI s hs)
      fun applied _ s hs => ?_
    cases applied
    · exact hI s hs
    · exact hkey s hs
  refine .bind (Q := fun r p => R p.durable ∧ (r = .ok () → id ∉ p.durable.initKeys))
    (.attempt (hspend.mono (fun _ hp => hp) (fun _ _ hp => ⟨hp.1, fun _ => hp.2⟩)
      (fun _ _ hp => ⟨hp, nofun⟩) fun _ hp => hp)) fun r => ?_
  cases r with
  | error e => exact .pure fun _ hp => hp.1
  | ok _ =>
    refine poolCall_spec (I := fun s => R s ∧ (_ → id ∉ s.initKeys)) (Q := R) (E := R) (K := R)
      hclean (fun s hs => hrec s hs.1 (hs.2 rfl)) (fun _ s hs => hs.1) fun applied _ s hs => ?_
    cases applied
    · exact hs.1
    · exact hrec s hs.1 (hs.2 rfl)

lemma purge_pruned {id : PackageId} (hgrace : b.expiredPastGrace now = true) :
    Spec allowed (fun p => Pruned now s₀ p.durable ∧ get p.durable.records id = some b)
      (purgeKeyPackageMaterial id) (fun _ p => Pruned now s₀ p.durable)
      (fun _ p => Pruned now s₀ p.durable) fun p => Pruned now s₀ p.durable :=
  purge_spec (I := fun s => Pruned now s₀ s ∧ get s.records id = some b) hclean (fun _ hs => hs.1)
    (fun _ hs => hs.1.dropKey hs.2 hgrace) fun _ hs hgone => hs.dropRecord hgone

include hfind

/-- Loading a package finds it when it can be used, and prunes it otherwise. -/
lemma load_pruned {id : PackageId} :
    Spec allowed (fun p => Pruned now s₀ p.durable) (loadStoredKeyPackage now id)
      (fun r p => Pruned now s₀ p.durable ∧ r = s₀.liveBundle now id)
      (fun _ p => Pruned now s₀ p.durable) fun p => Pruned now s₀ p.durable := by
  refine .bind (look_pruned hclean (fun _ => rfl) _) fun _ => ?_
  refine .observe fun found => ?_
  cases found with
  | none =>
    refine .pure fun p hp => ⟨hp.1, ?_⟩
    rw [← hp.1.live, liveBundle, hp.2]
    rfl
  | some b =>
    dsimp only
    by_cases hexpired : b.isExpired now = true
    · rw [if_pos hexpired]
      have hnone (hget : get s₀.records id = some b) : none = s₀.liveBundle now id := by
        simp [liveBundle, hget, Option.filter, hexpired]
      refine .given (φ := get s₀.records id = some b)
        (fun p hp => hp.1.records id b hp.2) fun hget => ?_
      split
      · rename_i hgrace
        exact .bind (purge_pruned hclean hgrace) fun _ => .pure fun p hp =>
          ⟨hp, hnone hget⟩
      · exact .pure fun p hp => ⟨hp.1, hnone hget⟩
    rw [if_neg hexpired]
    -- The lookup answers truly, so a record goes only when its init key is gone.
    have hkey : Spec allowed (fun p => Pruned now s₀ p.durable ∧ get p.durable.records id = some b)
        (providerHasInitKey id)
        (fun found p => (Pruned now s₀ p.durable ∧ get p.durable.records id = some b) ∧
          found = decide (id ∈ p.durable.initKeys))
        (fun _ p => Pruned now s₀ p.durable) fun p => Pruned now s₀ p.durable := by
      refine .known (.attempt (.operate (fun p _ hp => ⟨hp, rfl⟩)
        (fun p f hall _ => absurd hall (hfind id f)) fun p f _ hp => ?_))
        (.read fun p hp => ⟨hp, rfl⟩)
      cases f <;> exact hp.1
    refine .bind hkey fun present => ?_
    cases present with
    | true =>
      refine .pure fun p hp => ⟨hp.1.1, ?_⟩
      rw [← hp.1.1.live]
      symm
      exact liveBundle_eq_some.2
        ⟨hp.1.2, Bool.not_eq_true _ ▸ hexpired, of_decide_eq_true hp.2.symm⟩
    | false =>
      have hnone (s) (hs : Pruned now s₀ s) (hgone : id ∉ s.initKeys) :
          none = s₀.liveBundle now id := by
        rw [← hs.live, eq_comm, eq_none_iff_forall_ne_some]
        exact fun b hb => hgone (liveBundle_eq_some.1 hb).2.2
      refine .bind (Q := fun _ p => Pruned now s₀ p.durable ∧ none = s₀.liveBundle now id)
        (poolCall_spec (I := fun s => (Pruned now s₀ s ∧ get s.records id = some b) ∧
            false = decide (id ∈ s.initKeys))
          (Q := fun s => Pruned now s₀ s ∧ none = s₀.liveBundle now id) (E := Pruned now s₀)
          (K := Pruned now s₀) hclean (fun s hs => ?_) (fun _ s hs => hs.1.1)
          fun applied _ s hs => ?_) fun _ => .pure fun p hp => hp
      · have hgone := of_decide_eq_false hs.2.symm
        exact ⟨hs.1.1.dropRecord hgone, hnone s hs.1.1 hgone⟩
      cases applied
      · exact hs.1.1
      · exact hs.1.1.dropRecord (of_decide_eq_false hs.2.symm)

lemma usable_pruned {ids} :
    Spec allowed (fun p => Pruned now s₀ p.durable) (usablePackages now ids)
      (fun r p => Pruned now s₀ p.durable ∧
        r = (ids.filterMap (s₀.liveBundle now)).filter fun b => !b.withheldFromHandOut)
      (fun _ p => Pruned now s₀ p.durable) fun p => Pruned now s₀ p.durable := by
  induction ids with
  | nil => exact .pure fun _ hp => ⟨hp, rfl⟩
  | cons id ids ih =>
    refine .bind (load_pruned hclean hfind) fun bundle => ?_
    refine .given (φ := bundle = s₀.liveBundle now id) (fun _ hp => hp.2) fun hbundle => ?_
    refine .bind (ih.pre fun _ hp => hp.1) fun rest => .pure fun p hp => ⟨hp.1, ?_⟩
    rw [hbundle, hp.2, List.filterMap_cons]
    cases s₀.liveBundle now id with
    | none => rfl
    | some b =>
      rw [List.filter_cons]
      cases h : b.withheldFromHandOut <;> simp [Option.filter, h]

def KeyPool.handable (host : PoolHost) (now : ℕ) (s : KeyPool) : List KeyPackageBundle :=
  ((host.listing s.records.keys).filterMap (s.liveBundle now)).filter fun b =>
    !b.withheldFromHandOut

omit hfind in
lemma list_pruned (host : PoolHost) :
    Spec allowed (fun p => p.durable = s₀) (listKeyPackages host)
      (fun ids p => Pruned now s₀ p.durable ∧ ids = host.listing s₀.records.keys)
      (fun _ p => Pruned now s₀ p.durable) fun p => Pruned now s₀ p.durable := by
  have hsame (p : Part KeyPool PoolOp) (hp : p.durable = s₀) : Pruned now s₀ p.durable := by
    rw [hp]
    exact Pruned.refl
  refine .bind (Q := fun _ p => p.durable = s₀) ((look_pruned hclean (fun _ => rfl)
    fun s => s = s₀).mono (fun _ => id) (fun _ _ => id) (fun _ => hsame) hsame)
    fun _ => .read fun p hp => ⟨hsame p hp, ?_⟩
  rw [hp]

lemma scan_then {α : Type} {f : List KeyPackageBundle → PoolM α} {Q}
    (hf : Spec allowed (fun p => Pruned now s₀ p.durable) (f (s₀.handable host now)) Q E K)
    (hE : ∀ e p, Pruned now s₀ p.durable → E e p) (hK : ∀ p, Pruned now s₀ p.durable → K p) :
    Spec allowed (fun p => p.durable = s₀) (do
        let ids ← listKeyPackages host
        let usable ← usablePackages now ids
        f usable) Q E K := by
  refine .known ((list_pruned hclean host).mono (fun _ => id) (fun _ _ => id) hE hK) ?_
  exact .known ((usable_pruned hclean hfind).mono (fun _ => id) (fun _ _ => id) hE hK) hf

end

def allDone (_ : PoolOp) (fault : Fault) : Prop := fault = .done

section
variable {now : ℕ} {s₀ : KeyPool}

lemma allDone_clean : CleanFailures allDone := nofun

lemma allDone_findable : KeysFindable allDone := nofun

def Finishes {α : Type} (m : PoolM α) : Prop :=
  Spec allDone (fun _ => True) m (fun _ _ => True) (fun _ _ => False) fun _ => False

namespace Finishes
variable {α β : Type} {f : α → PoolM β}

lemma pure (a : α) : Finishes (Pure.pure a) := Spec.pure fun _ => id

lemma bind (hm : Finishes m) (hf : ∀ a, Finishes (f a)) : Finishes (m >>= f) :=
  Spec.bind hm hf

lemma call (op) : Finishes (poolCall op) :=
  .operate (fun _ _ => id) (fun _ _ hall _ => by cases hall) fun _ _ hall _ => by cases hall

lemma attempt (hm : Finishes m) : Finishes (attempt m) :=
  Spec.attempt (hm.mono (fun _ => id) (fun _ _ => id) (fun _ _ h => h.elim) fun _ => id)

lemma read (g : KeyPool → α) : Finishes (read g) := Spec.read fun _ => id

lemma spec (hm : Finishes m) (h : Spec allDone P m Q E K) : Spec allDone P m Q E' K' :=
  (h.and hm).mono (fun _ hp => ⟨hp, trivial⟩) (fun _ _ hp => hp.1) (fun _ _ hp => hp.2.elim)
    fun _ hp => hp.2.elim

lemma purgeKeyPackageMaterial (id : PackageId) : Finishes (purgeKeyPackageMaterial id) := by
  refine bind (attempt (call _)) fun r => ?_
  cases r with
  | error _ => exact pure ()
  | ok _ => exact call _

lemma loadStoredKeyPackage (id : PackageId) : Finishes (loadStoredKeyPackage now id) := by
  refine bind (call _) fun _ => bind (read _) fun found => ?_
  cases found with
  | none => exact pure none
  | some b =>
    dsimp only
    split_ifs
    · exact bind (purgeKeyPackageMaterial id) fun _ => pure none
    · exact pure none
    refine bind (bind (attempt (call _)) fun r => ?_) fun present => ?_
    · cases r with
      | error _ => exact pure false
      | ok _ => exact read _
    cases present
    · exact bind (call _) fun _ => pure none
    · exact pure (some b)

lemma usablePackages (ids : List PackageId) : Finishes (usablePackages now ids) := by
  induction ids with
  | nil => exact pure []
  | cons id ids ih => exact bind (loadStoredKeyPackage id) fun _ => bind ih fun _ => pure _

end Finishes

lemma scan_done {host : PoolHost} {α : Type} {f : List KeyPackageBundle → PoolM α} {Q}
    (hf : Spec allDone (fun p => Pruned now s₀ p.durable) (f (s₀.handable host now)) Q
      (fun _ _ => False) fun _ => False) :
    Spec allDone (fun p => p.durable = s₀) (do
        let ids ← listKeyPackages host
        let usable ← usablePackages now ids
        f usable) Q (fun _ _ => False) fun _ => False := by
  refine .bind ((Finishes.bind (Finishes.call _) fun _ => Finishes.read _).spec
    (@list_pruned _ now _ allDone_clean host)) fun ids => ?_
  refine .given (φ := ids = host.listing s₀.records.keys) (fun _ hp => hp.2) fun hids => ?_
  subst hids
  refine .bind ((Finishes.usablePackages _).spec ((usable_pruned allDone_clean
    allDone_findable).pre fun _ hp => hp.1)) fun usable => ?_
  refine .given (φ := usable = s₀.handable host now) (fun _ hp => hp.2) fun husable => ?_
  subst husable
  exact hf.pre fun _ hp => hp.1

end

end OfflineProtocol
