import OfflineProtocol.CustodyStore

/-! The custody store's redundant indexes, and how removing, inserting and
updating a frame moves them. -/
namespace OfflineProtocol
open KeyedTable

namespace CustodyStore

def countOf (s : CustodyStore) (d : PeerId) : ℕ :=
  tally s.entries fun h => if h.depositor = d then 1 else 0

def bytesOf (s : CustodyStore) (d : PeerId) : ℕ :=
  tally s.entries fun h => if h.depositor = d then h.bytes else 0

/-- The order lists the held ids once each, and the usages are the counts and
byte sums over the held frames, with no entry for a depositor of nothing. -/
structure Balanced (s : CustodyStore) : Prop where
  order_nodup : s.order.Nodup
  mem_order : ∀ x, x ∈ s.order ↔ x ∈ s.entries
  keyed : ∀ x h, get s.entries x = some h → h.message.id = x
  usage : ∀ d, get s.perDepositor d =
    if s.countOf d = 0 then none else some ⟨s.countOf d, s.bytesOf d⟩
  total : s.total = ⟨s.entries.entries.length, tally s.entries (·.bytes)⟩

structure WithinBudgets (s : CustodyStore) : Prop where
  entries_le : s.total.entries ≤ s.config.maxEntries
  bytes_le : s.total.bytes ≤ s.config.maxBytes
  depositor_entries_le : ∀ d, (s.usageOf d).entries ≤
    max s.config.maxEntriesPerDepositor s.config.strangerMaxEntries
  depositor_bytes_le : ∀ d, (s.usageOf d).bytes ≤
    max s.config.maxBytesPerDepositor s.config.strangerMaxBytes

variable {s : CustodyStore}

lemma bytesOf_eq_zero (h : s.countOf d = 0) : s.bytesOf d = 0 := by
  refine tally_eq_zero _ _ fun k v hk => ?_
  have hle := le_tally s.entries (fun h => if h.depositor = d then 1 else 0) hk
  unfold countOf at h
  split_ifs with hd
  · simp only [hd, if_true] at hle
    omega
  · rfl

lemma Balanced.usageOf_eq (h : s.Balanced) (d) : s.usageOf d = ⟨s.countOf d, s.bytesOf d⟩ := by
  unfold usageOf
  rw [h.usage]
  split_ifs with hc
  · rw [hc, bytesOf_eq_zero hc]
    rfl
  · rfl

lemma new_balanced (config) : (new config).Balanced where
  order_nodup := List.nodup_nil
  mem_order x := by simp [new]
  keyed x h hx := by simp [new] at hx
  usage d := rfl
  total := rfl

lemma new_within (config) : (new config).WithinBudgets := by
  constructor <;> simp [new, usageOf, Usage.zero]

section
variable {id : MessageId} {held : HeldFrame}

lemma removeInner_absent (h : get s.entries id = none) : s.removeInner id = (s, none) := by
  simp only [removeInner, h]

lemma removeInner_entries (h : get s.entries id = some held) :
    (s.removeInner id).1.entries = s.entries.erase id := by
  simp only [removeInner, h]

lemma removeInner_order (h : get s.entries id = some held) :
    (s.removeInner id).1.order = s.order.filter (· ≠ id) := by
  simp only [removeInner, h]

@[simp] lemma removeInner_config (s : CustodyStore) (id) :
    (s.removeInner id).1.config = s.config := by
  unfold removeInner
  split <;> rfl

lemma get_removeInner (s : CustodyStore) (id x) :
    get (s.removeInner id).1.entries x = if x = id then none else get s.entries x := by
  cases h : get s.entries id with
  | none =>
    rw [removeInner_absent h]
    split_ifs with hx
    · rw [hx, h]
    · rfl
  | some held => rw [removeInner_entries h, get_erase]

lemma tally_removeInner (h : get s.entries id = some held) (w : HeldFrame → ℕ) :
    tally (s.removeInner id).1.entries w + w held = tally s.entries w := by
  rw [removeInner_entries h]
  exact tally_erase s.entries w h

lemma Balanced.removeInner_usage (hb : s.Balanced) (h : get s.entries id = some held)
    (d : PeerId) :
    get (s.removeInner id).1.perDepositor d =
      if (s.removeInner id).1.countOf d = 0 then none
      else some ⟨(s.removeInner id).1.countOf d, (s.removeInner id).1.bytesOf d⟩ := by
  have hcount : (s.removeInner id).1.countOf d + _ = s.countOf d := tally_removeInner h _
  have hbytes : (s.removeInner id).1.bytesOf d + _ = s.bytesOf d := tally_removeInner h _
  have hown : s.countOf held.depositor ≠ 0 := by
    have hle := le_tally s.entries (fun h => if h.depositor = held.depositor then 1 else 0) h
    unfold countOf
    simp only [if_true] at hle
    omega
  have husage := hb.usage held.depositor
  rw [if_neg hown] at husage
  have hget : get (s.removeInner id).1.perDepositor d =
      if d = held.depositor then
        (if s.countOf d - 1 = 0 then none
          else some ⟨s.countOf d - 1, s.bytesOf d - held.bytes⟩)
      else get s.perDepositor d := by
    simp only [removeInner, h, husage]
    by_cases hd : d = held.depositor
    · subst hd
      rw [if_pos rfl]
      split_ifs with hz
      · rw [get_erase, if_pos rfl]
      · rw [get_insert_self]
    · rw [if_neg hd]
      split_ifs with hz
      · rw [get_erase_ne hd]
      · rw [get_insert, if_neg hd]
  rw [hget]
  by_cases hd : d = held.depositor
  · subst hd
    simp only [if_true] at hcount hbytes ⊢
    have h1 : s.countOf held.depositor - 1 = (s.removeInner id).1.countOf held.depositor := by
      omega
    have h2 : s.bytesOf held.depositor - held.bytes =
        (s.removeInner id).1.bytesOf held.depositor := by omega
    rw [h1, h2]
  · have hd' : ¬ held.depositor = d := fun he => hd he.symm
    simp only [hd', if_false, Nat.add_zero] at hcount hbytes
    rw [if_neg hd, hb.usage, hcount, hbytes]

lemma Balanced.removeInner (hb : s.Balanced) {id : MessageId} :
    (s.removeInner id).1.Balanced := by
  cases h : get s.entries id with
  | none =>
    rw [removeInner_absent h]
    exact hb
  | some held =>
    have htotal : (s.removeInner id).1.total =
        ⟨s.total.entries - 1, s.total.bytes - held.bytes⟩ := by
      simp only [CustodyStore.removeInner, h]
    refine ⟨?_, fun x => ?_, fun x g hx => ?_, hb.removeInner_usage h, ?_⟩
    · rw [removeInner_order h]
      exact hb.order_nodup.filter _
    · rw [removeInner_order h, removeInner_entries h, AList.mem_erase, List.mem_filter,
        hb.mem_order, decide_eq_true_eq, and_comm]
    · rw [get_removeInner] at hx
      split_ifs at hx
      exact hb.keyed x g hx
    have hlen := tally_removeInner h fun _ => 1
    have hbytes := tally_removeInner h (·.bytes)
    rw [tally_one, tally_one] at hlen
    simp only [htotal, hb.total, Usage.mk.injEq]
    constructor <;> omega

lemma Balanced.removeInner_le (hb : s.Balanced) (id : MessageId) :
    (s.removeInner id).1.total.entries ≤ s.total.entries ∧
      (s.removeInner id).1.total.bytes ≤ s.total.bytes ∧
      ∀ d, ((s.removeInner id).1.usageOf d).entries ≤ (s.usageOf d).entries ∧
        ((s.removeInner id).1.usageOf d).bytes ≤ (s.usageOf d).bytes := by
  cases h : get s.entries id with
  | none =>
    rw [removeInner_absent h]
    exact ⟨le_rfl, le_rfl, fun d => ⟨le_rfl, le_rfl⟩⟩
  | some held =>
    have hsum := tally_removeInner h
    have hlen := hsum fun _ => 1
    rw [tally_one, tally_one] at hlen
    refine ⟨?_, ?_, fun d => ?_⟩
    · rw [(hb.removeInner).total, hb.total]
      exact (Nat.le_add_right _ 1).trans hlen.le
    · rw [(hb.removeInner).total, hb.total]
      exact (Nat.le_add_right _ _).trans (hsum (·.bytes)).le
    rw [(hb.removeInner).usageOf_eq, hb.usageOf_eq]
    exact ⟨(Nat.le_add_right _ _).trans (hsum _).le, (Nat.le_add_right _ _).trans (hsum _).le⟩

lemma WithinBudgets.removeInner (hw : s.WithinBudgets) (hb : s.Balanced) (id : MessageId) :
    (s.removeInner id).1.WithinBudgets := by
  obtain ⟨he, hy, hd⟩ := hb.removeInner_le id
  refine ⟨?_, ?_, fun d => ?_, fun d => ?_⟩ <;> rw [removeInner_config]
  · exact he.trans hw.entries_le
  · exact hy.trans hw.bytes_le
  · exact (hd d).1.trans (hw.depositor_entries_le d)
  · exact (hd d).2.trans (hw.depositor_bytes_le d)

lemma removeAll_cons (s : CustodyStore) (id ids) :
    s.removeAll (id :: ids) = (s.removeInner id).1.removeAll ids := rfl

lemma removeAll_append (s : CustodyStore) (ids more) :
    s.removeAll (ids ++ more) = (s.removeAll ids).removeAll more := List.foldl_append

lemma removeAll_preserves {P : CustodyStore → Prop}
    (hstep : ∀ s id, P s → P (s.removeInner id).1) (hs : P s) : P (s.removeAll ids) := by
  induction ids generalizing s with
  | nil => exact hs
  | cons id ids ih => exact ih (hstep s id hs)

lemma Balanced.removeAll (hb : s.Balanced) {ids : List MessageId} : (s.removeAll ids).Balanced :=
  removeAll_preserves (fun _ _ hs => hs.removeInner) hb

lemma get_removeAll {s : CustodyStore} {ids : List MessageId} :
    get (s.removeAll ids).entries x = if x ∈ ids then none else get s.entries x := by
  induction ids generalizing s with
  | nil => simp [removeAll]
  | cons id ids ih =>
    rw [removeAll_cons, ih, get_removeInner]
    split_ifs <;> simp_all

end

section
variable {held : HeldFrame}

lemma tally_store_insert (h : held.message.id ∉ s.entries) (w : HeldFrame → ℕ) :
    tally (s.insert held).entries w = w held + tally s.entries w :=
  tally_insert_new s.entries w h

lemma Balanced.insert (hb : s.Balanced) (h : held.message.id ∉ s.entries) :
    (s.insert held).Balanced := by
  have hne : ∀ x ∈ s.order, x ≠ held.message.id :=
    fun x hx he => h ((hb.mem_order _).1 (he ▸ hx))
  refine ⟨?_, fun x => ?_, fun x g hx => ?_, fun d => ?_, ?_⟩
  · refine List.nodup_append.2 ⟨hb.order_nodup, List.nodup_singleton _, ?_⟩
    intro x hx y hy
    rw [List.mem_singleton.1 hy]
    exact hne x hx
  · simp only [CustodyStore.insert, List.mem_append, List.mem_singleton, AList.mem_insert,
      hb.mem_order, or_comm]
  · rcases of_get_insert hx with ⟨rfl, rfl⟩ | ⟨-, hx⟩
    · rfl
    · exact hb.keyed x g hx
  · have hcount : (s.insert held).countOf d = _ + s.countOf d := tally_store_insert h _
    have hbytes : (s.insert held).bytesOf d = _ + s.bytesOf d := tally_store_insert h _
    simp only [CustodyStore.insert, get_insert, hb.usageOf_eq] at hcount hbytes ⊢
    by_cases hd : d = held.depositor
    · subst hd
      simp only [if_true] at hcount hbytes ⊢
      rw [if_neg (by omega), hcount, hbytes, Nat.add_comm, Nat.add_comm held.bytes]
    have hd' : ¬ held.depositor = d := fun he => hd he.symm
    simp only [hd, hd', if_false, Nat.zero_add] at hcount hbytes ⊢
    rw [hb.usage, hcount, hbytes]
  · have hlen := tally_store_insert h fun _ => 1
    have hbytes := tally_store_insert h (·.bytes)
    rw [tally_one, tally_one] at hlen
    rw [hlen, hbytes]
    simp only [CustodyStore.insert, hb.total, Usage.mk.injEq]
    constructor <;> omega

lemma usageOf_insert (s : CustodyStore) (held d) : (s.insert held).usageOf d =
      if d = held.depositor then
        ⟨(s.usageOf d).entries + 1, (s.usageOf d).bytes + held.bytes⟩
      else s.usageOf d := by
  simp only [usageOf, CustodyStore.insert, get_insert]
  split_ifs with hd
  · rw [hd]
    rfl
  · rfl

lemma WithinBudgets.insert (hw : s.WithinBudgets)
    (hfit : s.fitsDepositor held.depositor held.bytes maxEntries maxBytes = true)
    (hstore : s.fitsStore held.bytes = true)
    (hentries : maxEntries ≤ max s.config.maxEntriesPerDepositor s.config.strangerMaxEntries)
    (hbytes : maxBytes ≤ max s.config.maxBytesPerDepositor s.config.strangerMaxBytes) :
    (s.insert held).WithinBudgets := by
  simp only [fitsDepositor, fitsStore, Bool.and_eq_true, decide_eq_true_eq] at hfit hstore
  refine ⟨?_, ?_, fun d => ?_, fun d => ?_⟩
  · exact hstore.1
  · exact hstore.2
  · rw [usageOf_insert]
    split_ifs with hd
    · rw [hd]
      exact (Nat.succ_le_of_lt hfit.1).trans hentries
    · exact hw.depositor_entries_le d
  · rw [usageOf_insert]
    split_ifs with hd
    · rw [hd]
      exact hfit.2.trans hbytes
    · exact hw.depositor_bytes_le d

end

/-- An update that keeps the charge keeps the accounts. -/
lemma Balanced.modify (hb : s.Balanced) {id} (f)
    (hm : ∀ h, (f h).message = h.message) (hd : ∀ h, (f h).depositor = h.depositor)
    (hy : ∀ h, (f h).bytes = h.bytes) : Balanced { s with entries := modify s.entries id f } := by
  have hcount : ∀ d, tally (KeyedTable.modify s.entries id f)
      (fun h => if h.depositor = d then 1 else 0) = s.countOf d :=
    fun d => tally_modify _ _ _ _ fun v => by rw [hd]
  have hbytes : ∀ d, tally (KeyedTable.modify s.entries id f)
      (fun h => if h.depositor = d then h.bytes else 0) = s.bytesOf d :=
    fun d => tally_modify _ _ _ _ fun v => by rw [hd, hy]
  refine ⟨hb.order_nodup, fun x => ?_, fun x g hx => ?_, fun d => ?_, ?_⟩
  · rw [mem_modify, hb.mem_order]
  · rw [get_modify] at hx
    split_ifs at hx with hxid
    · obtain ⟨h, hh, rfl⟩ := Option.map_eq_some_iff.1 hx
      rw [hm, hb.keyed id h hh, hxid]
    · exact hb.keyed x g hx
  · simp only [countOf, bytesOf, hcount, hbytes]
    exact hb.usage d
  · have hlen := tally_modify s.entries (fun _ => 1) id f fun _ => rfl
    have hsum := tally_modify s.entries (·.bytes) id f hy
    rw [tally_one, tally_one] at hlen
    rw [hlen, hsum]
    exact hb.total

end CustodyStore

end OfflineProtocol
