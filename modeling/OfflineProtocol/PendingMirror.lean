import OfflineProtocol.EventTrace
import OfflineProtocol.PendingRemoval
import Mathlib.Tactic.Abel

/-! The pending queue and the records that mirror it in storage. -/
namespace OfflineProtocol
open KeyedTable EventTrace PendingDecryptionQueue Multiset

def pendingDecryptRecordVersion : ℕ := 1

structure PendingDecryptRecord where
  version : ℕ
  peerId : PeerId
  message : Message
  firstReceivedAtMs : ℤ
  receivedVia : Option TransportType
deriving DecidableEq

structure PendingStore where
  queue : PendingDecryptionQueue
  records : Table MessageId PendingDecryptRecord

inductive PendingEvent
  /-- The queue took the frame. -/
  | admitted (message : Message)
  /-- A queued frame was dropped, and the drop reported. -/
  | reported (drop : DroppedPendingMessage)
  /-- An incoming frame was refused, and the refusal reported. -/
  | refused (drop : DroppedPendingMessage)
  /-- A queued frame was handed to the drain. -/
  | drained (entry : PendingDecryptMessage)
deriving DecidableEq

namespace PendingStore
variable (config : PendingQueueConfig) (s : PendingStore) (peer : PeerId) (now : ℕ)

def empty : PendingStore where
  queue := .empty
  records := ∅

def deletePendingDecryptEntries (ids : List MessageId) : PendingStore :=
  { s with records := eraseAll s.records ids }

def persistPendingDecryptEntry (message : Message)
    (firstReceivedAtMs : ℤ) (via : Option TransportType) : PendingStore :=
  { s with
    records := s.records.insert message.id
      ⟨pendingDecryptRecordVersion, peer, message, firstReceivedAtMs, via⟩ }

def reportDroppedPending (dropped : List DroppedPendingMessage) :
    PendingStore × List PendingEvent :=
  (s.deletePendingDecryptEntries (dropped.map (·.message.id)), dropped.map .reported)

def enqueuePendingDecryptionVia (sender : PeerId)
    (message : Message) (via : Option TransportType) (now : ℕ) (nowMs : ℤ) :
    PendingStore × List PendingEvent :=
  let r := s.queue.enqueueVia config sender message via now
  let dropped := PendingStore.reportDroppedPending { s with queue := r.1 } r.2.dropped
  let told := dropped.2 ++ (r.2.refused.map .refused).toList
  if r.2.admitted then
    (dropped.1.persistPendingDecryptEntry sender message nowMs via, told ++ [.admitted message])
  else (dropped.1, told)

def prunePendingGlobalFront
    (maxEvictions : ℕ) : PendingStore × List PendingEvent :=
  let r := s.queue.pruneExpiredGlobalFront config now maxEvictions
  PendingStore.reportDroppedPending { s with queue := r.1 } r.2

/-- Takes a peer's frames out of the queue, deleting their records. Both the
discard and the processing of a peer's frames come through here. -/
def takePendingDecryption : PendingStore × List PendingEvent :=
  let r := s.queue.drainForPeer config peer now
  (PendingStore.deletePendingDecryptEntries { s with queue := r.1 } (r.2.map (·.message.id)),
    r.2.map .drained)

def discardPendingDecryptionForPeer : PendingStore × List PendingEvent :=
  s.takePendingDecryption config peer now

def processPendingDecryption (sender : PeerId)
    (prunedAt drainedAt : ℕ) : PendingStore × List PendingEvent :=
  let expired := s.queue.pruneExpiredForPeer config sender prunedAt
  let reported := PendingStore.reportDroppedPending { s with queue := expired.1 } expired.2
  let drained := reported.1.takePendingDecryption config sender drainedAt
  (drained.1, reported.2 ++ drained.2)

inductive Op
  | enqueue (sender : PeerId) (message : Message) (via : Option TransportType) (now : ℕ) (nowMs : ℤ)
  | prune (now maxEvictions : ℕ)
  | discard (peer : PeerId) (now : ℕ)
  | process (sender : PeerId) (prunedAt drainedAt : ℕ)

def step : Op → PendingStore × List PendingEvent
  | .enqueue sender message via now nowMs =>
    s.enqueuePendingDecryptionVia config sender message via now nowMs
  | .prune now maxEvictions => s.prunePendingGlobalFront config now maxEvictions
  | .discard peer now => s.discardPendingDecryptionForPeer config peer now
  | .process sender prunedAt drainedAt =>
    s.processPendingDecryption config sender prunedAt drainedAt

/-- The queued frames have distinct ids, and exactly these ids have records. -/
structure Mirrored (s : PendingStore) : Prop where
  filed : s.queue.Filed
  ids : (s.queue.messages.map (·.id)).Nodup
  records : ∀ id, id ∈ s.records ↔ id ∈ s.queue.messages.map (·.id)

lemma empty_mirrored : empty.Mirrored where
  filed p e he := nomatch he
  ids := nodup_zero
  records id := by
    have h : id ∉ (∅ : Table MessageId PendingDecryptRecord) := AList.notMem_empty id
    exact ⟨fun hid => absurd hid h, fun hid => absurd hid (notMem_zero id)⟩

lemma Mirrored.leave {s : PendingStore} (h : s.Mirrored) {gone : List Message} (hfiled : q.Filed)
    (hgone : q.messages + (gone : Multiset Message) = s.queue.messages) :
    Mirrored { queue := q, records := eraseAll s.records (gone.map (·.id)) } := by
  have hsum : q.messages.map (·.id) + ((gone.map (·.id) : List MessageId) : Multiset MessageId) =
      s.queue.messages.map (·.id) := by
    rw [← hgone, map_add]
    rfl
  have hnodup := h.ids
  rw [← hsum] at hnodup
  obtain ⟨hq, -, hdisj⟩ := nodup_add.1 hnodup
  refine ⟨hfiled, hq, fun id => ?_⟩
  rw [mem_eraseAll, h.records, ← hsum, mem_add, mem_coe]
  constructor
  · rintro ⟨hin | hin, hout⟩
    · exact hin
    · exact absurd hin hout
  intro hin
  exact ⟨Or.inl hin, fun hout => disjoint_left.1 hdisj hin hout⟩

lemma Mirrored.come {s : PendingStore} (h : s.Mirrored) {record} (hfiled : q.Filed)
    (hq : q.messages = message ::ₘ s.queue.messages)
    (hnew : message.id ∉ s.queue.messages.map (·.id)) :
    Mirrored { queue := q, records := s.records.insert message.id record } := by
  refine ⟨hfiled, ?_, fun id => ?_⟩
  · rw [hq, map_cons]
    exact nodup_cons.2 ⟨hnew, h.ids⟩
  rw [hq, map_cons, mem_cons, ← h.records]
  exact AList.mem_insert _

def pick (f : PendingEvent → Option Message) (log : List PendingEvent) : Multiset Message :=
  (log.filterMap f : List Message)

lemma pick_append (f l1 l2) : pick f (l1 ++ l2) = pick f l1 + pick f l2 := by
  simp [pick, List.filterMap_append]

def admittedMessage : PendingEvent → Option Message
  | .admitted message => some message
  | _ => none

def reportedMessage : PendingEvent → Option Message
  | .reported drop => some drop.message
  | _ => none

def drainedMessage : PendingEvent → Option Message
  | .drained entry => some entry.message
  | _ => none

/-- What an operation did to the queued frames: those reported or drained
left, those admitted came. -/
def Accounts (r : PendingStore × List PendingEvent) : Prop :=
  r.1.Mirrored ∧
    r.1.queue.messages + pick reportedMessage r.2 + pick drainedMessage r.2 =
      s.queue.messages + pick admittedMessage r.2

section
variable (ds : List DroppedPendingMessage) (es : List PendingDecryptMessage)

lemma pick_map {f : PendingEvent → Option Message} {c : α → PendingEvent} {m : α → Message}
    (h : ∀ a, f (c a) = some (m a)) {l : List α} :
    pick f (l.map c) = (l.map m : List Message) := by
  rw [pick, List.filterMap_map, show f ∘ c = some ∘ m from funext h, List.filterMap_eq_map]

lemma pick_map_none {c : α → PendingEvent} (h : ∀ a, f (c a) = none) {l : List α} :
    pick f (l.map c) = 0 := by
  have hnil : l.filterMap (f ∘ c) = [] := List.filterMap_eq_nil_iff.2 fun a _ => h a
  rw [pick, List.filterMap_map, hnil]
  rfl

lemma pick_reported :
    pick reportedMessage (ds.map .reported) = (ds.map (·.message) : List Message) ∧
      pick drainedMessage (ds.map .reported) = 0 ∧ pick admittedMessage (ds.map .reported) = 0 :=
  ⟨pick_map (fun _ => rfl), pick_map_none (fun _ => rfl), pick_map_none (fun _ => rfl)⟩

lemma pick_drained : pick drainedMessage (es.map .drained) = (es.map (·.message) : List Message) ∧
      pick reportedMessage (es.map .drained) = 0 ∧ pick admittedMessage (es.map .drained) = 0 :=
  ⟨pick_map (fun _ => rfl), pick_map_none (fun _ => rfl), pick_map_none (fun _ => rfl)⟩

end

variable (config : PendingQueueConfig) {s : PendingStore}

lemma Accounts.trans (h : Accounts s r) (h' : Accounts r.1 r') :
    Accounts s (r'.1, r.2 ++ r'.2) := by
  refine ⟨h'.1, ?_⟩
  have h1 := h.2
  have h2 := h'.2
  simp only [pick_append]
  -- Both balances, added up, differ from the goal by the middle queue only.
  have hsum : r'.1.queue.messages + (pick reportedMessage r.2 + pick reportedMessage r'.2) +
      (pick drainedMessage r.2 + pick drainedMessage r'.2) =
      (r'.1.queue.messages + pick reportedMessage r'.2 + pick drainedMessage r'.2) +
        (pick reportedMessage r.2 + pick drainedMessage r.2) := by
    abel
  rw [hsum, h2, add_right_comm, ← add_assoc r.1.queue.messages, h1, add_assoc]

lemma reportDroppedPending_accounts (h : s.Mirrored) (hr : Reports s.queue ds q) :
    Accounts s (PendingStore.reportDroppedPending { s with queue := q } ds) := by
  obtain ⟨h1, h2, h3⟩ := pick_reported ds
  constructor
  · have hleave := h.leave (hr.filed h.filed) hr.messages
    rw [List.map_map] at hleave
    exact hleave
  simp only [reportDroppedPending, h1, h2, h3, add_zero]
  exact hr.messages

/-- A drain with nothing expired at the front of the peer's queue. -/
lemma takePendingDecryption_accounts (h : s.Mirrored) {peer now}
    (hfresh : (s.queue.queueOf peer).head?.any (isEntryExpired config now) = false) :
    Accounts s (s.takePendingDecryption config peer now) := by
  obtain ⟨hfiled, hsum⟩ := drainForPeer_spec h.filed hfresh
  obtain ⟨h1, h2, h3⟩ := pick_drained (s.queue.drainForPeer config peer now).2
  constructor
  · have hleave := h.leave hfiled hsum
    rw [List.map_map] at hleave
    exact hleave
  simp only [takePendingDecryption, h1, h2, h3, add_zero]
  exact hsum

/-- No frame of the id waits under another sender when a frame is admitted, and
nothing is left at the front of a peer's queue for the drain to drop unseen. -/
def Undisturbed (s : PendingStore) : Op → Prop
  | .enqueue sender message via now _ =>
    (s.queue.enqueueViaInner config sender message via now).2.2 = .admitted →
    ∀ p ∈ s.queue.queues.keys, p ≠ sender → ∀ e ∈ s.queue.queueOf p, e.message.id ≠ message.id
  | .prune _ _ => True
  | .discard peer now => (s.queue.queueOf peer).head?.any (isEntryExpired config now) = false
  | .process sender prunedAt drainedAt =>
    ((s.queue.queueOf sender).dropWhile (isEntryExpired config prunedAt)).head?.any
      (isEntryExpired config drainedAt) = false

instance (config : PendingQueueConfig) (s : PendingStore) (op : Op) :
    Decidable (Undisturbed config s op) := by
  cases op <;> dsimp only [Undisturbed] <;> infer_instance

lemma notMem_ids (hr : Reports q ds mid) {id : MessageId}
    (hown : ∀ e ∈ mid.queueOf sender, e.message.id ≠ id)
    (hother : ∀ p ∈ q.queues.keys, p ≠ sender → ∀ e ∈ q.queueOf p, e.message.id ≠ id) :
    id ∉ mid.messages.map (·.id) := by
  intro hin
  obtain ⟨m, hm, hid⟩ := mem_map.1 hin
  obtain ⟨e, he, rfl⟩ := mem_map.1 hm
  obtain ⟨p, hp⟩ := mem_entries_iff.1 he
  by_cases hps : p = sender
  · exact hown e (hps ▸ hp) hid
  have hold := (hr.queueOf p).subset hp
  have hkey : p ∈ q.queues.keys := by
    by_contra hnone
    rw [queueOf, get_eq_none_iff.2 hnone] at hold
    cases hold
  exact hother p hkey hps e hold hid

lemma admitted_accounts (h : s.Mirrored) (record) (hfiled : q.Filed)
    (hq : q.messages = message ::ₘ s.queue.messages)
    (hnew : message.id ∉ s.queue.messages.map (·.id)) :
    Accounts s ({ queue := q, records := s.records.insert message.id record },
      [.admitted message]) := by
  refine ⟨h.come hfiled hq hnew, ?_⟩
  have hpick : pick reportedMessage [.admitted message] = 0 ∧
      pick drainedMessage [.admitted message] = 0 ∧
      pick admittedMessage [.admitted message] = {message} := ⟨rfl, rfl, rfl⟩
  simp only [hpick, add_zero, hq]
  rw [← singleton_add, add_comm]

lemma refused_accounts (h : s.Mirrored) (hfiled : q.Filed) (hq : q.messages = s.queue.messages)
    (refused : Option DroppedPendingMessage) :
    Accounts s ({ s with queue := q }, (refused.map .refused).toList) := by
  refine ⟨⟨hfiled, ?_, fun id => ?_⟩, ?_⟩
  · rw [hq]
    exact h.ids
  · rw [hq]
    exact h.records id
  have hpick : pick reportedMessage (refused.map .refused).toList = 0 ∧
      pick drainedMessage (refused.map .refused).toList = 0 ∧
      pick admittedMessage (refused.map .refused).toList = 0 := by
    cases refused <;> exact ⟨rfl, rfl, rfl⟩
  simp only [hpick, add_zero]
  exact hq

lemma enqueuePendingDecryptionVia_accounts (h : s.Mirrored) {message : Message} {via now}
    (hother : (s.queue.enqueueViaInner config sender message via now).2.2 = .admitted →
      ∀ p ∈ s.queue.queues.keys, p ≠ sender → ∀ e ∈ s.queue.queueOf p, e.message.id ≠ message.id) :
    Accounts s (s.enqueuePendingDecryptionVia config sender message via now nowMs) := by
  have hspec := enqueueViaInner_spec config h.filed sender message via now
  rcases hinner : s.queue.enqueueViaInner config sender message via now with ⟨q, ds, admission⟩
  rw [hinner] at hspec hother
  obtain ⟨hfiled, mid, hr, hkept, hcame⟩ := hspec
  have hdrop := reportDroppedPending_accounts h hr
  simp only [enqueuePendingDecryptionVia, enqueueVia, hinner]
  cases admission with
  | admitted =>
    obtain ⟨hown, hpush⟩ := hcame rfl
    have htaken := hdrop.trans (admitted_accounts hdrop.1
      ⟨pendingDecryptRecordVersion, sender, message, nowMs, via⟩ hfiled hpush
      (notMem_ids hr hown (hother rfl)))
    simp
    exact htaken
  | alreadyQueued =>
    have hq := hkept (by simp)
    exact hdrop.trans (refused_accounts hdrop.1 hfiled hq none)
  | refused =>
    have hq := hkept (by simp)
    exact hdrop.trans (refused_accounts hdrop.1 hfiled hq (some _))

lemma step_accounts (h : s.Mirrored) (op)
    (hc : Undisturbed config s op) : Accounts s (s.step config op) := by
  cases op with
  | enqueue sender message via now nowMs =>
    exact enqueuePendingDecryptionVia_accounts config h hc
  | prune now maxEvictions =>
    exact reportDroppedPending_accounts h (pruneGlobalLoop_reports config now _ maxEvictions _)
  | discard peer now => exact takePendingDecryption_accounts config h hc
  | process sender prunedAt drainedAt =>
    have hpruned := reportDroppedPending_accounts h
      (pruneExpiredForPeer_reports config s.queue sender prunedAt)
    apply hpruned.trans
    apply takePendingDecryption_accounts config hpruned.1
    have hq := pruneExpiredForPeer_queueOf config s.queue sender prunedAt
    simp only [reportDroppedPending, deletePendingDecryptEntries, hq]
    exact hc

/-- In every run whose operations meet the condition: the ids with a record are
the ids of the queued frames, and the frames admitted so far are the queued
ones, those reported as dropped and those handed to a drain, each counted
once. -/
theorem pending_mirror_agrees (ops : List Op)
    (hc : AlongSteps (step config) (Undisturbed config) empty ops) :
    let r := runSteps (step config) empty ops
    (∀ id, id ∈ r.1.records ↔ ∃ peer, ∃ e ∈ r.1.queue.queueOf peer, e.message.id = id) ∧
      pick admittedMessage r.2 =
        r.1.queue.messages + pick reportedMessage r.2 + pick drainedMessage r.2 := by
  intro r
  have hstart : Accounts empty (empty, []) := ⟨empty_mirrored, rfl⟩
  have hrun : Accounts empty (r.1, [] ++ r.2) :=
    runSteps_invariant (I := fun s log => Accounts empty (s, log))
      (fun s op past hs hop => hs.trans (step_accounts config hs.1 op hop)) hc hstart
  rw [List.nil_append] at hrun
  obtain ⟨hm, hsum⟩ := hrun
  constructor
  · intro id
    rw [hm.records id]
    constructor
    · intro hin
      obtain ⟨m, hm, hid⟩ := mem_map.1 hin
      obtain ⟨e, he, rfl⟩ := mem_map.1 hm
      obtain ⟨peer, hp⟩ := mem_entries_iff.1 he
      exact ⟨peer, e, hp, hid⟩
    · rintro ⟨peer, e, hp, hid⟩
      have he := mem_entries_iff.2 ⟨peer, hp⟩
      exact mem_map.2 ⟨e.message, mem_map_of_mem _ he, hid⟩
  · exact (hsum.trans (zero_add _)).symm

def sealedFrame (id : MessageId) (sender : PeerId) : Message where
  id := id
  sender := sender
  recipient := "me"
  appId := "app"
  priority := .medium
  ttl := 5
  hopCount := 0
  content := "__MLS_ENC__x"
  binaryContent := none
  mediaMetadata := none
  metadata := ∅

theorem pending_mirror_two_senders :
    let ops : List Op :=
      [.enqueue "a" (sealedFrame "m1" "a") none 0 0, .enqueue "b" (sealedFrame "m2" "b") none 10 10,
        .prune 20 64, .process "a" 30 31]
    let r := runSteps (step .default) empty ops
    r.1.records.keys = ["m2"] ∧
      (∀ id, id ∈ r.1.records ↔ ∃ peer, ∃ e ∈ r.1.queue.queueOf peer, e.message.id = id) ∧
      pick drainedMessage r.2 = {sealedFrame "m1" "a"} := by
  intro ops r
  have h := pending_mirror_agrees .default ops (by decide +kernel)
  exact ⟨by decide +kernel, h.1, by decide +kernel⟩

/-- Two ways records and frames part. Two senders use one id: discarding the
frames of one deletes the record that stands for the other's frame. And a frame
that expired before its peer is discarded leaves the queue unreported, its
record staying behind. -/
theorem pending_mirror_parts :
    (let r := runSteps (step .default) empty
        [.enqueue "a" (sealedFrame "m1" "a") none 0 0, .enqueue "b" (sealedFrame "m1" "b") none 0 0,
          .discard "a" 10]
     r.1.records.keys = [] ∧ (r.1.queue.queueOf "b").map (·.message.id) = ["m1"]) ∧
    (let r := runSteps (step .default) empty
        [.enqueue "a" (sealedFrame "m1" "a") none 0 0, .discard "a" 86400000]
     r.1.records.keys = ["m1"] ∧ r.1.queue.queues.keys = [] ∧
        r.2 = [.admitted (sealedFrame "m1" "a")]) := by
  decide +kernel

end PendingStore

end OfflineProtocol
