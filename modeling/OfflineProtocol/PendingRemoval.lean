import OfflineProtocol.PendingQueue
import Mathlib.Algebra.Order.Group.Multiset
import Mathlib.Data.Multiset.MapFold

/-! What leaves the pending queue: every removal takes exactly the entries it
reports, whatever the counters say. -/
namespace OfflineProtocol
open KeyedTable Multiset PendingDecryptionQueue List

namespace PendingDecryptionQueue
variable {q : PendingDecryptionQueue}
variable (config : PendingQueueConfig) {peer : PeerId} (fits : PendingDecryptionQueue → Bool)

def entries (q : PendingDecryptionQueue) : Multiset PendingDecryptMessage :=
  tally q.queues fun l => (l : Multiset PendingDecryptMessage)

def messages (q : PendingDecryptionQueue) : Multiset Message := q.entries.map (·.message)

structure Reports (q : PendingDecryptionQueue) (ds : List DroppedPendingMessage)
    (q' : PendingDecryptionQueue) : Prop where
  messages : q'.messages + (ds.map (·.message) : Multiset Message) = q.messages
  queueOf : ∀ p, (q'.queueOf p).Sublist (q.queueOf p)
  nextSeq : q'.nextSeq = q.nextSeq

def Filed (q : PendingDecryptionQueue) : Prop :=
  ∀ p, ∀ e ∈ q.queueOf p, e.peerId = p ∧ e.messageId = e.message.id ∧ e.sequence < q.nextSeq

lemma Reports.refl (q) : Reports q [] q where
  messages := add_zero _
  queueOf _ := List.Sublist.refl _
  nextSeq := rfl

lemma Reports.trans (h : Reports q ds q') (h' : Reports q' ds' q'') :
    Reports q (ds ++ ds') q'' where
  messages := by
    have hsum : ((ds ++ ds').map (·.message) : Multiset Message) =
        (ds'.map (·.message) : Multiset Message) + (ds.map (·.message) : Multiset Message) := by
      rw [map_append, ← coe_add, add_comm]
    rw [hsum, ← add_assoc, h'.messages, h.messages]
  queueOf p := (h'.queueOf p).trans (h.queueOf p)
  nextSeq := h'.nextSeq.trans h.nextSeq

lemma Reports.filed (h : Reports q ds q') (hq : q.Filed) : q'.Filed := by
  intro p e he
  have hf := hq p e ((h.queueOf p).subset he)
  rw [h.nextSeq]
  exact hf

lemma mem_entries_iff : e ∈ q.entries ↔ ∃ p, e ∈ q.queueOf p := by
  have hmem : e ∈ q.entries ↔ ∃ l ∈ values q.queues, e ∈ l := by
    unfold entries tally
    induction values q.queues with
    | nil => simp
    | cons l ls ih => simp [ih]
  rw [hmem]
  constructor
  · rintro ⟨l, hl, he⟩
    obtain ⟨p, hp⟩ := mem_values_iff.1 hl
    exact ⟨p, by rw [queueOf, hp]; exact he⟩
  rintro ⟨p, he⟩
  cases hp : get q.queues p with
  | none =>
    rw [queueOf, hp] at he
    cases he
  | some l =>
    rw [queueOf, hp] at he
    exact ⟨l, mem_values_iff.2 ⟨p, hp⟩, he⟩

/-- What `removeEntryBySequence` takes out, and what it leaves of the peer's
queue. -/
lemma removeEntryBySequence_spec {sequence : ℕ}
    (h : q.removeEntryBySequence peer sequence = some (e, q')) :
    e.sequence = sequence ∧ (∃ l1 l2, q.queueOf peer = l1 ++ e :: l2 ∧ q'.queueOf peer = l1 ++ l2 ∧
        ∀ a ∈ l1, a.sequence ≠ sequence) ∧
      (∀ p, p ≠ peer → q'.queueOf p = q.queueOf p) ∧
      q.entries = e ::ₘ q'.entries ∧ q'.nextSeq = q.nextSeq := by
  unfold removeEntryBySequence at h
  cases hq : get q.queues peer with
  | none => simp [hq] at h
  | some l =>
    cases hf : l.find? fun e => decide (e.sequence = sequence) with
    | none => simp [hq, hf] at h
    | some removed =>
      obtain ⟨hseq, l1, l2, hl, hfirst⟩ := find?_eq_some_iff_append.1 hf
      have hrest : l.eraseP (fun e => decide (e.sequence = sequence)) = l1 ++ l2 := by
        rw [hl, eraseP_append_right _ (by simpa using hfirst)]
        exact congrArg (l1 ++ ·) (eraseP_cons_of_pos (p := fun e => _) hseq)
      have hall : q.entries = ↑l + tally (q.queues.erase peer)
          fun l => (l : Multiset PendingDecryptMessage) := by
        rw [add_comm]
        exact (tally_erase q.queues _ hq).symm
      have hcons : (l : Multiset PendingDecryptMessage) = removed ::ₘ ↑(l1 ++ l2) := by
        rw [hl, cons_coe]
        exact coe_eq_coe.2 perm_middle
      simp only [hq, hf, hrest] at h
      -- The peer's last entry takes the queue with it.
      split_ifs at h with hempty
      · obtain ⟨rfl, rfl⟩ := Prod.mk.inj (Option.some.inj h)
        refine ⟨by simpa using hseq, ⟨l1, l2, ?_, ?_, by simpa using hfirst⟩, fun p hp => ?_, ?_, rfl⟩
        · rw [queueOf, hq, ← hl]
          rfl
        · simp [queueOf, get_erase, hempty]
        · simp [queueOf, get_erase, hp]
        rw [hall, hcons, hempty, coe_nil, cons_add, zero_add]
        rfl
      · obtain ⟨rfl, rfl⟩ := Prod.mk.inj (Option.some.inj h)
        refine ⟨by simpa using hseq, ⟨l1, l2, ?_, ?_, by simpa using hfirst⟩, fun p hp => ?_, ?_, rfl⟩
        · rw [queueOf, hq, ← hl]
          rfl
        · simp [queueOf]
        · simp [queueOf, get_insert_ne hp]
        · rw [hall, hcons, cons_add, entries, tally_insert]

lemma removeEntryBySequence_reports {sequence : ℕ}
    (h : q.removeEntryBySequence peer sequence = some (e, q')) (reason) :
    Reports q [e.dropped reason] q' := by
  obtain ⟨-, ⟨l1, l2, hbefore, hafter, -⟩, hother, hentries, hnext⟩ := removeEntryBySequence_spec h
  refine ⟨?_, fun p => ?_, hnext⟩
  · unfold messages
    rw [hentries, Multiset.map_cons, ← singleton_add, add_comm]
    rfl
  by_cases hp : p = peer
  · rw [hp, hbefore, hafter]
    exact (sublist_cons_self e l2).append_left l1
  · rw [hother p hp]

lemma removeEntryBySequence_isSome
    (h : e ∈ q.queueOf peer) : ∃ r, q.removeEntryBySequence peer e.sequence = some r := by
  unfold removeEntryBySequence
  cases hq : get q.queues peer with
  | none =>
    rw [queueOf, hq] at h
    cases h
  | some l =>
    rw [queueOf, hq] at h
    cases hf : l.find? fun a => decide (a.sequence = e.sequence) with
    | none =>
      have hnone := find?_eq_none.1 hf e h
      simp at hnone
    | some removed =>
      by_cases hempty : l.eraseP (fun a => decide (a.sequence = e.sequence)) = [] <;>
        simp [hf, hempty]

lemma removeEntryBySequence_front (h : q.queueOf peer = e :: es) :
    ∃ q', q.removeEntryBySequence peer e.sequence = some (e, q') ∧ q'.queueOf peer = es := by
  have hmem : e ∈ q.queueOf peer := by
    rw [h]
    exact .head _
  obtain ⟨⟨removed, q'⟩, hr⟩ := removeEntryBySequence_isSome hmem
  obtain ⟨hseq, ⟨l1, l2, hbefore, hafter, hfirst⟩, -⟩ := removeEntryBySequence_spec hr
  cases l1 with
  | nil =>
    rw [h, nil_append] at hbefore
    obtain ⟨rfl, rfl⟩ := cons.inj hbefore
    exact ⟨q', hr, hafter⟩
  | cons a l1 =>
    rw [h, cons_append] at hbefore
    have ha : e = a := (cons.inj hbefore).1
    exact absurd (ha ▸ rfl) (hfirst a (.head _))

lemma expireEach_reports (peer es)
    (q) : Reports q (expireEach peer es q).2 (expireEach peer es q).1 := by
  induction es generalizing q with
  | nil => exact .refl q
  | cons e es ih =>
    unfold expireEach
    cases hr : q.removeEntryBySequence peer e.sequence with
    | none => exact ih q
    | some r => exact (removeEntryBySequence_reports hr .ttlExpired).trans (ih r.2)

lemma expireEach_queueOf {peer}
    (h : q.queueOf peer = es ++ rest) : (expireEach peer es q).1.queueOf peer = rest := by
  induction es generalizing q with
  | nil => exact h
  | cons e es ih =>
    obtain ⟨q', hr, hq'⟩ := removeEntryBySequence_front h
    simp only [expireEach, hr]
    exact ih hq'

section
variable (sender : PeerId) (fuel : ℕ) (q : PendingDecryptionQueue) (peer : PeerId) (now : ℕ)

lemma cleanupGlobalOrderFront_reports : Reports q [] q.cleanupGlobalOrderFront :=
  ⟨add_zero _, fun _ => List.Sublist.refl _, rfl⟩

lemma pruneExpiredForPeer_reports :
    Reports q (q.pruneExpiredForPeer config peer now).2 (q.pruneExpiredForPeer config peer now).1 := by
  have h := (expireEach_reports peer ((q.queueOf peer).takeWhile (isEntryExpired config now)) q).trans
    (cleanupGlobalOrderFront_reports _)
  rwa [append_nil] at h

lemma pruneExpiredForPeer_queueOf : (q.pruneExpiredForPeer config peer now).1.queueOf peer =
      (q.queueOf peer).dropWhile (isEntryExpired config now) :=
  expireEach_queueOf takeWhile_append_dropWhile.symm

lemma pruneGlobalLoop_reports (order left q) :
    Reports q (pruneGlobalLoop config now order left q).2
      (pruneGlobalLoop config now order left q).1 := by
  have hstop : ∀ (q : PendingDecryptionQueue) order, Reports q [] { q with globalOrder := order } :=
    fun q order => ⟨add_zero _, fun _ => .refl _, rfl⟩
  induction order generalizing left q with
  | nil => cases left <;> exact hstop q []
  | cons front rest ih =>
    cases left with
    | zero => exact hstop q (front :: rest)
    | succ left =>
      unfold pruneGlobalLoop
      split
      · exact ih (left + 1) q
      split
      · exact ih (left + 1) q
      split
      · exact hstop q (front :: rest)
      cases hr : q.removeEntryBySequence front.peerId front.sequence with
      | none => exact ih (left + 1) q
      | some r => exact (removeEntryBySequence_reports hr .ttlExpired).trans (ih left r.2)

lemma evictPeerLoop_reports :
    Reports q (evictPeerLoop fits sender fuel q).2 (evictPeerLoop fits sender fuel q).1 := by
  induction fuel generalizing q with
  | zero => exact .refl q
  | succ fuel ih =>
    unfold evictPeerLoop
    split
    · exact .refl q
    cases hr : (q.queueOf sender).head?.bind fun e => q.removeEntryBySequence sender e.sequence with
    | none => exact .refl q
    | some r =>
      obtain ⟨e, -, he⟩ := Option.bind_eq_some_iff.1 hr
      exact (removeEntryBySequence_reports he .overflowDropOldest).trans (ih r.2)

lemma evictGlobalOldest_reports :
    Reports q ((q.evictGlobalOldest.2.map (·.dropped .overflowDropOldest)).toList)
      q.evictGlobalOldest.1 := by
  have hclean := cleanupGlobalOrderFront_reports q
  unfold evictGlobalOldest
  cases horder : q.cleanupGlobalOrderFront.globalOrder with
  | nil =>
    simp only [horder]
    exact hclean
  | cons front rest =>
    have hpop : Reports q [] { q.cleanupGlobalOrderFront with globalOrder := rest } :=
      ⟨add_zero _, fun _ => .refl _, rfl⟩
    simp only [horder]
    split
    · exact hpop
    cases hr : removeEntryBySequence
        { q.cleanupGlobalOrderFront with globalOrder := rest } front.peerId front.sequence with
    | none => exact hpop
    | some r => exact hpop.trans (removeEntryBySequence_reports hr .overflowDropOldest)

lemma evictGlobalLoop_reports :
    Reports q (evictGlobalLoop fits fuel q).2 (evictGlobalLoop fits fuel q).1 := by
  induction fuel generalizing q with
  | zero => exact .refl q
  | succ fuel ih =>
    have hone := evictGlobalOldest_reports q
    unfold evictGlobalLoop
    split
    · exact .refl q
    rcases hr : q.evictGlobalOldest with ⟨q', removed⟩
    rw [hr] at hone
    cases removed with
    | none => exact hone
    | some removed => exact hone.trans (ih q')

lemma enforceAll_reports {ls : List (PendingDecryptionQueue →
      PendingDecryptionQueue × List DroppedPendingMessage × Bool)}
    (h : ∀ limit ∈ ls, ∀ q, Reports q (limit q).2.1 (limit q).1) (q) :
    Reports q (enforceAll ls q).2.1 (enforceAll ls q).1 := by
  induction ls generalizing q with
  | nil => exact .refl q
  | cons limit ls ih =>
    have hfirst := h limit (.head _) q
    unfold enforceAll
    dsimp only
    split
    · exact hfirst.trans (ih (fun l hl => h l (.tail _ hl)) _)
    · exact hfirst

lemma enforce_reports (fits) (h : ∀ q, Reports q (evict q).2 (evict q).1) {q} :
    Reports q (enforce policy fits evict q).2.1 (enforce policy fits evict q).1 := by
  unfold enforce
  split
  · exact .refl q
  cases policy with
  | dropNewest => exact .refl q
  | dropOldest => exact h q

lemma limits_reports (incoming q) : Reports q (enforceAll (limits config sender incoming) q).2.1
      (enforceAll (limits config sender incoming) q).1 := by
  apply enforceAll_reports
  intro limit hlimit q
  simp only [limits, List.mem_cons, not_mem_nil, or_false] at hlimit
  rcases hlimit with rfl | rfl | rfl | rfl
  · exact enforce_reports _ (evictPeerLoop_reports _ sender 1)
  · exact enforce_reports _ (fun q => evictPeerLoop_reports _ sender _ q)
  · exact enforce_reports _ (fun q => evictGlobalLoop_reports _ _ q)
  · exact enforce_reports _ (fun q => evictGlobalLoop_reports _ _ q)

lemma entries_eq : q.entries = ↑(q.queueOf peer) + tally (q.queues.erase peer)
      fun l => (l : Multiset PendingDecryptMessage) := by
  cases hq : get q.queues peer with
  | none =>
    have herase : q.queues.erase peer = q.queues := by
      apply AList.ext
      exact kerase_of_notMem_keys (get_eq_none_iff.1 hq)
    rw [queueOf, hq, herase]
    exact (zero_add _).symm
  | some l =>
    rw [queueOf, hq, add_comm]
    exact (tally_erase q.queues _ hq).symm

end

section
variable {sender : PeerId} {now : ℕ}

lemma pushBack_queueOf_self : (q.pushBack sender message via now).queueOf sender =
      q.queueOf sender ++ [⟨sender, message.id, now, q.nextSeq, message, via⟩] := by
  simp [pushBack, cleanupGlobalOrderFront, queueOf]

lemma pushBack_queueOf_ne {peer : PeerId} (h : peer ≠ sender) :
    (q.pushBack sender message via now).queueOf peer = q.queueOf peer := by
  simp [pushBack, cleanupGlobalOrderFront, queueOf, get_insert_ne h]

lemma pushBack_entries : (q.pushBack sender message via now).entries =
      ⟨sender, message.id, now, q.nextSeq, message, via⟩ ::ₘ q.entries := by
  rw [entries_eq q sender, ← cons_add]
  simp only [entries, pushBack, cleanupGlobalOrderFront, tally_insert]
  congr 1
  rw [cons_coe]
  exact coe_eq_coe.2 (perm_append_singleton _ _)

lemma Filed.pushBack (h : q.Filed) : (q.pushBack sender message via now).Filed := by
  intro p e he
  have hnext : (q.pushBack sender message via now).nextSeq = q.nextSeq + 1 := rfl
  rw [hnext]
  by_cases hp : p = sender
  · rw [hp, pushBack_queueOf_self] at he
    rcases mem_append.1 he with he | he
    · obtain ⟨hpeer, hid, hseq⟩ := h sender e he
      exact ⟨hp ▸ hpeer, hid, by omega⟩
    rw [List.mem_singleton.1 he]
    exact ⟨hp.symm, rfl, Nat.lt_succ_self _⟩
  · rw [pushBack_queueOf_ne hp] at he
    obtain ⟨hpeer, hid, hseq⟩ := h p e he
    exact ⟨hpeer, hid, by omega⟩

lemma pushBack_rollback (h : q.Filed) (sender message) (via now) :
    ∃ r, (q.pushBack sender message via now).removeEntryBySequence sender q.nextSeq = some r ∧
      r.2.Filed ∧ r.2.entries = q.entries := by
  have hmem : (⟨sender, message.id, now, q.nextSeq, message, via⟩ : PendingDecryptMessage) ∈
      (q.pushBack sender message via now).queueOf sender := by
    rw [pushBack_queueOf_self]
    exact mem_append_right _ (List.mem_singleton_self _)
  obtain ⟨⟨e, q'⟩, hr⟩ := removeEntryBySequence_isSome hmem
  obtain ⟨hseq, ⟨l1, l2, hl, -⟩, -, hentries, -⟩ := removeEntryBySequence_spec hr
  -- Every older entry has a smaller number.
  have he : e = ⟨sender, message.id, now, q.nextSeq, message, via⟩ := by
    have hin : e ∈ (q.pushBack sender message via now).queueOf sender := by
      rw [hl]
      exact List.mem_append_right _ (.head _)
    rw [pushBack_queueOf_self] at hin
    rcases List.mem_append.1 hin with hin | hin
    · have hlt := (h sender e hin).2.2
      dsimp only at hseq
      omega
    · exact List.mem_singleton.1 hin
  refine ⟨(e, q'), hr, (removeEntryBySequence_reports hr .ttlExpired).filed h.pushBack, ?_⟩
  rw [pushBack_entries, he] at hentries
  exact (Multiset.cons_inj_right _).1 hentries.symm

end

def Enqueues (q : PendingDecryptionQueue) (sender : PeerId) (message : Message)
    (r : PendingDecryptionQueue × List DroppedPendingMessage × PendingAdmission) : Prop :=
  r.1.Filed ∧ ∃ mid, Reports q r.2.1 mid ∧
    (r.2.2 ≠ .admitted → r.1.messages = mid.messages) ∧
    (r.2.2 = .admitted → (∀ e ∈ mid.queueOf sender, e.message.id ≠ message.id) ∧
      r.1.messages = message ::ₘ mid.messages)

lemma enqueueViaInner_spec (config) (h : q.Filed) (sender) (message) (via now) :
    Enqueues q sender message (q.enqueueViaInner config sender message via now) := by
  rcases hp : q.pruneExpiredForPeer config sender now with ⟨q1, d1⟩
  rcases hg : q1.pruneExpiredGlobalFront config now 64 with ⟨q2, d2⟩
  rcases hl : enforceAll (limits config sender (messageBytes message)) q2 with ⟨q3, d3, room⟩
  have hpeer := pruneExpiredForPeer_reports config q sender now
  have hfront := pruneGlobalLoop_reports config now q1.globalOrder 64 q1
  have hlim := limits_reports config sender (messageBytes message) q2
  rw [hp] at hpeer
  rw [show pruneGlobalLoop config now q1.globalOrder 64 q1 = (q2, d2) from hg] at hfront
  rw [hl] at hlim
  have hpruned := hpeer.trans hfront
  have hroom := hpruned.trans hlim
  simp only [enqueueViaInner, hp, hg, hl]
  by_cases hold : (q2.queueOf sender).any fun e => decide (e.messageId = message.id)
  · rw [if_pos hold]
    exact ⟨hpruned.filed h, q2, hpruned, fun _ => rfl, nofun⟩
  rw [if_neg hold]
  by_cases hbig : config.maxPendingBytesPerPeer < messageBytes message ∨
      config.maxPendingBytesGlobal < messageBytes message
  · rw [if_pos hbig]
    exact ⟨hpruned.filed h, q2, hpruned, fun _ => rfl, nofun⟩
  rw [if_neg hbig]
  cases room with
  | false => exact ⟨hroom.filed h, q3, hroom, fun _ => rfl, nofun⟩
  | true =>
    rw [if_neg (by simp)]
    by_cases hover : (q3.pushBack sender message via now).overBounds config sender
    · obtain ⟨r, hr, hfiled, hentries⟩ := pushBack_rollback (hroom.filed h) sender message via now
      rw [if_pos hover, hr]
      have hsame : r.2.messages = q3.messages := by
        unfold messages
        rw [hentries]
      exact ⟨hfiled, q3, hroom, fun _ => hsame, nofun⟩
    · rw [if_neg hover]
      refine ⟨(hroom.filed h).pushBack, q3, hroom, fun hadm => absurd rfl hadm, fun _ => ⟨?_, ?_⟩⟩
      · intro e he hid
        have hmem := (hlim.queueOf sender).subset he
        have hmid := (hpruned.filed h sender e hmem).2.1
        apply hold
        exact any_eq_true.2 ⟨e, hmem, decide_eq_true (hmid.trans hid)⟩
      · unfold messages
        rw [pushBack_entries, Multiset.map_cons]

lemma foldl_forgetEntry (es : List PendingDecryptMessage) (q) :
    (es.foldl forgetEntry q).queues = q.queues ∧ (es.foldl forgetEntry q).nextSeq = q.nextSeq := by
  induction es generalizing q with
  | nil => exact ⟨rfl, rfl⟩
  | cons e es ih => exact ih (q.forgetEntry e)

/-- With nothing expired at the front, a drain hands out the peer's whole
queue. -/
lemma drainForPeer_spec {config} (h : q.Filed) {sender now}
    (hfresh : (q.queueOf sender).head?.any (isEntryExpired config now) = false) :
    let r := q.drainForPeer config sender now
    r.1.Filed ∧ r.1.messages + (r.2.map (·.message) : Multiset Message) = q.messages := by
  have hnone : (q.queueOf sender).takeWhile (isEntryExpired config now) = [] := by
    cases hq : q.queueOf sender with
    | nil => rfl
    | cons e es =>
      rw [hq, head?_cons, Option.any_some] at hfresh
      exact takeWhile_cons_of_neg (by simp [hfresh])
  have hprune : (q.pruneExpiredForPeer config sender now).1 = q.cleanupGlobalOrderFront := by
    simp only [pruneExpiredForPeer, hnone, expireEach]
  have hqueues : q.cleanupGlobalOrderFront.queues = q.queues := rfl
  have hrest : ∀ r : PendingDecryptionQueue, r.queues = q.queues.erase sender →
      r.nextSeq = q.nextSeq → r.Filed ∧
        r.messages + ((q.queueOf sender).map (·.message) : Multiset Message) = q.messages := by
    intro r hr hnext
    constructor
    · intro p e he
      rw [hnext]
      apply h p e
      by_cases hp : p = sender
      · simp [queueOf, hr, get_erase, hp] at he
      · simpa [queueOf, hr, get_erase, hp] using he
    · have hall := entries_eq q sender
      unfold messages
      rw [hall, map_add, add_comm, ← map_coe, entries, hr]
  simp only [drainForPeer, hprune, hqueues]
  cases hq : get q.queues sender with
  | none =>
    refine ⟨h, ?_⟩
    exact add_zero _
  | some l =>
    have hl : q.queueOf sender = l := by rw [queueOf, hq]; rfl
    rw [hl] at hrest
    cases l with
    | nil => exact hrest _ rfl rfl
    | cons e es =>
      obtain ⟨h1, h2⟩ := foldl_forgetEntry (e :: es)
        { q.cleanupGlobalOrderFront with queues := q.queues.erase sender }
      exact hrest _ h1 h2

end PendingDecryptionQueue

end OfflineProtocol
