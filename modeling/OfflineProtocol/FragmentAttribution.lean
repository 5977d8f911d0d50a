import OfflineProtocol.ByteFraming
import OfflineProtocol.EventTrace
import OfflineProtocol.KeyedTable
import OfflineProtocol.WireCodec
import Mathlib.Algebra.Order.Field.Rat
import Mathlib.Data.List.MinMax
import Mathlib.Tactic.SplitIfs

/-! Messages that come in fragments over Bluetooth: the assemblies that collect
them, and the peer a completed message is attributed to. -/
namespace OfflineProtocol
open ByteFraming EventTrace KeyedTable List

def bleFragmentTimeoutSecs : ℕ := 30

def bleMaxFragmentAssemblies : ℕ := 64

def bleMaxFragmentCount : ℕ := 512

def bleMaxMessageSize : ℕ := 1048576

def fragmentMagic : Bytes := [79, 80]

def fragmentVersion : UInt8 := 1

def fragmentHeaderFixed : ℕ := 10

inductive BleError
  | other (text : String)
  | messageTooLarge (size ceiling : ℕ)
  | deserialization
  deriving DecidableEq

structure BleHost (M : Type) where
  fromUtf8 : Bytes → Option String
  deserialize : Bytes → Except BleError M

structure DecodedFragment where
  messageId : String
  fragmentIndex : ℕ
  totalFragments : ℕ
  data : Bytes
  deriving DecidableEq

variable {M : Type}

def fromLeBytes (bytes : Bytes) : ℕ := fromBeBytes bytes.reverse

def decodeFragment (host : BleHost M) (bytes : Bytes) : Except BleError DecodedFragment :=
  if bytes.length < fragmentHeaderFixed then .error (.other "Fragment too short")
  else if bytes.take 2 ≠ fragmentMagic then .error (.other "Invalid fragment magic")
  else if bytes.getD 2 0 ≠ fragmentVersion then
    .error (.other ("Unsupported fragment version " ++ toString (bytes.getD 2 0)))
  else
    let idLen := (bytes.getD 3 0).toNat
    if bytes.length < fragmentHeaderFixed + idLen then
      .error (.other "Fragment truncated (id)")
    else
      match host.fromUtf8 ((bytes.drop 4).take idLen) with
      | none => .error (.other "Invalid UTF-8 in message ID")
      | some messageId =>
        let rest := bytes.drop (4 + idLen)
        let dataLen := fromLeBytes ((rest.drop 4).take 2)
        if rest.length < 6 then .error (.other "Fragment truncated (header)")
        else if rest.length < 6 + dataLen then .error (.other "Fragment truncated (data)")
        else .ok ⟨messageId, fromLeBytes (rest.take 2), fromLeBytes ((rest.drop 2).take 2),
          (rest.drop 6).take dataLen⟩

structure FragmentAssembly where
  totalFragments : ℕ
  fragments : Table ℕ Bytes
  startedAt : ℕ
  lastSeen : ℕ
  bufferedBytes : ℕ

namespace FragmentAssembly

def completionRatio (a : FragmentAssembly) : ℚ :=
  if a.totalFragments = 0 then 0 else a.fragments.entries.length / a.totalFragments

def evictionPriority (a : FragmentAssembly) (now : ℕ) : ℚ :=
  a.completionRatio - min (((now - a.startedAt : ℕ) : ℚ) / 1000 / 60) 1 * (1 / 5)

end FragmentAssembly

def payloadsBelow (fragments : Table ℕ Bytes) : ℕ → Except BleError (List Bytes)
  | 0 => .ok []
  | n + 1 =>
    match payloadsBelow fragments n with
    | .error e => .error e
    | .ok parts =>
      match get fragments n with
      | some data => .ok (parts ++ [data])
      | none => .error (.other ("Missing fragment " ++ toString n))

abbrev FragmentBuffers := Table String FragmentAssembly

def cleanupFragmentBuffers (buffers : FragmentBuffers) (now : ℕ) : FragmentBuffers :=
  retain buffers fun _ a => decide (now - a.lastSeen ≤ bleFragmentTimeoutSecs * 1000)

/-- A new assembly takes the place of the least valuable one when there are as
many as there may be; `order` is the order the map is walked in. -/
def evictAssembly (buffers : FragmentBuffers) (order : List String) (now : ℕ) (id : String) :
    FragmentBuffers :=
  if id ∉ buffers ∧ bleMaxFragmentAssemblies ≤ buffers.entries.length then
    match (visit buffers order).argmin fun e => e.2.evictionPriority now with
    | some victim => buffers.erase victim.1
    | none => buffers
  else buffers

def assemblyOf (buffers : FragmentBuffers) (f : DecodedFragment) (now : ℕ) : FragmentAssembly :=
  (get buffers f.messageId).getD ⟨f.totalFragments, ∅, now, now, 0⟩

def insertFragment (buffers : FragmentBuffers) (f : DecodedFragment) (now : ℕ) :
    FragmentBuffers × Except BleError (Option Bytes) :=
  let a := assemblyOf buffers f now
  let priorLen := ((get a.fragments f.fragmentIndex).map length).getD 0
  let projected := a.bufferedBytes - priorLen + f.data.length
  if a.totalFragments ≠ f.totalFragments then
    (buffers, .error (.other ("Fragment count mismatch: expected " ++ toString a.totalFragments ++
      ", got " ++ toString f.totalFragments)))
  else if bleMaxMessageSize < projected then
    (buffers.erase f.messageId, .error (.messageTooLarge projected bleMaxMessageSize))
  else
    let fragments := a.fragments.insert f.fragmentIndex f.data
    let grown := buffers.insert f.messageId
      { a with fragments := fragments, lastSeen := now, bufferedBytes := projected }
    if fragments.entries.length = a.totalFragments then
      match payloadsBelow fragments a.totalFragments with
      | .error e => (grown, .error e)
      | .ok parts => (grown.erase f.messageId, .ok (some parts.flatten))
    else (grown, .ok none)

variable (host : BleHost M)

def deserializeWithin (payload : Bytes) : Except BleError (Option M) :=
  if bleMaxMessageSize < payload.length then
    .error (.messageTooLarge payload.length bleMaxMessageSize)
  else (host.deserialize payload).map some

def processFragment (buffers : FragmentBuffers) (order : List String) (now : ℕ) (bytes : Bytes) :
    FragmentBuffers × Except BleError (Option M) :=
  let buffers := cleanupFragmentBuffers buffers now
  match decodeFragment host bytes with
  | .error e => (buffers, .error e)
  | .ok f =>
    if bleMaxFragmentCount < f.totalFragments then
      (buffers, .error (.other "Fragment count exceeds maximum"))
    else if f.totalFragments ≤ f.fragmentIndex then
      (buffers, .error (.other "Fragment index out of range"))
    else if f.totalFragments = 1 then (buffers, deserializeWithin host f.data)
    else
      let r := insertFragment (evictAssembly buffers order now f.messageId) f now
      match r.2 with
      | .error e => (r.1, .error e)
      | .ok none => (r.1, .ok none)
      | .ok (some payload) => (r.1, deserializeWithin host payload)

structure Arrival where
  bytes : Bytes
  peer : String
  now : ℕ
  order : List String

structure Received (M : Type) where
  message : M
  transportPeerId : String
  deriving DecidableEq

structure BleReceiver where
  buffers : FragmentBuffers
  past : List Arrival

namespace BleReceiver

/-- An error is dropped, and so is a message no peer is named for. -/
def onFragmentReceivedFrom (w : BleReceiver) (a : Arrival) : BleReceiver × List (Received M) :=
  let r := processFragment host w.buffers a.order a.now a.bytes
  (⟨r.1, a :: w.past⟩,
    match r.2 with
    | .ok (some message) => if a.peer = "" then [] else [⟨message, a.peer⟩]
    | _ => [])

/-- A fragment of message `id` that belongs into an assembly. -/
def isOf (id : String) (a : Arrival) : Bool :=
  match decodeFragment host a.bytes with
  | .ok f => f.messageId = id ∧ f.totalFragments ≤ bleMaxFragmentCount ∧
      f.fragmentIndex < f.totalFragments ∧ f.totalFragments ≠ 1
  | .error _ => false

def lastPeer (past : List Arrival) (id : String) : Option String :=
  (past.find? (isOf host id)).map Arrival.peer

/-- While a message is being assembled, its fragments come from the peer the
one before came from. -/
def SamePeer (w : BleReceiver) (a : Arrival) : Prop :=
  ∀ id ∈ cleanupFragmentBuffers w.buffers a.now, isOf host id a = true →
    lastPeer host w.past id = some a.peer

/-- `peer` handed over `data` as the fragment of message `id` at `index`. -/
def Delivered (past : List Arrival) (peer id : String) (index : ℕ) (data : Bytes) : Prop :=
  ∃ a ∈ past, a.peer = peer ∧ ∃ f, decodeFragment host a.bytes = .ok f ∧ f.messageId = id ∧
    f.fragmentIndex = index ∧ f.data = data

/-- The message is what `peer` itself handed over, put together in index order. -/
def Attributed (past : List Arrival) (r : Received M) : Prop :=
  ∃ id parts, host.deserialize (flatten parts) = .ok r.message ∧
    ∀ i data, parts[i]? = some data → Delivered host past r.transportPeerId id i data

/-- What is being assembled was handed over by the peer of the message's latest
fragment. -/
def Fed (past : List Arrival) (buffers : FragmentBuffers) : Prop :=
  ∀ id a, get buffers id = some a → ∃ peer ∈ lastPeer host past id,
    ∀ i data, get a.fragments i = some data → Delivered host past peer id i data

variable {host} {past : List Arrival} {buffers : FragmentBuffers} {peer : String}

lemma Delivered.later {id : String} {i : ℕ} {data : Bytes}
    (h : Delivered host past peer id i data) (hsub : past ⊆ past') :
    Delivered host past' peer id i data := by
  obtain ⟨a, ha, hrest⟩ := h
  exact ⟨a, hsub ha, hrest⟩

lemma Attributed.later (h : Attributed host past r) (hsub : past ⊆ past') :
    Attributed host past' r := by
  obtain ⟨id, parts, hmessage, hparts⟩ := h
  exact ⟨id, parts, hmessage, fun i data hi => (hparts i data hi).later hsub⟩

lemma Fed.erase (h : Fed host past buffers) {id} : Fed host past (buffers.erase id) := by
  intro id' a ha
  exact h id' a (of_get_erase ha).2

lemma Fed.evict (h : Fed host past buffers) (order now id) :
    Fed host past (evictAssembly buffers order now id) := by
  unfold evictAssembly
  split_ifs
  · cases (visit buffers order).argmin fun e => e.2.evictionPriority now with
    | none => exact h
    | some victim => exact h.erase
  · exact h

lemma payloadsBelow_get (h : payloadsBelow fragments n = .ok parts) :
    parts.length = n ∧ ∀ i data, parts[i]? = some data → get fragments i = some data := by
  induction n generalizing parts with
  | zero =>
    obtain rfl := Except.ok.inj h
    exact ⟨rfl, fun i data hi => by simp at hi⟩
  | succ n ih =>
    rw [payloadsBelow] at h
    cases hparts : payloadsBelow fragments n with
    | error e =>
      rw [hparts] at h
      cases h
    | ok front =>
      obtain ⟨hlength, hfront⟩ := ih hparts
      rw [hparts] at h
      cases hlast : get fragments n with
      | none =>
        rw [hlast] at h
        cases h
      | some last =>
        rw [hlast] at h
        obtain rfl := Except.ok.inj h
        refine ⟨by rw [length_append, hlength, length_singleton], fun i data hi => ?_⟩
        rw [getElem?_append] at hi
        split_ifs at hi with hless
        · exact hfront i data hi
        rw [getElem?_singleton] at hi
        split_ifs at hi with hzero
        rw [← hi, ← hlast]
        congr 1
        omega

section
variable {f : DecodedFragment} (hlast : lastPeer host past f.messageId = some peer)
  (hnew : Delivered host past peer f.messageId f.fragmentIndex f.data)
include hlast hnew

lemma Fed.held (h : Fed host past buffers)
    (hi : get ((assemblyOf buffers f now).fragments.insert f.fragmentIndex f.data) i = some data) :
    Delivered host past peer f.messageId i data := by
  rcases of_get_insert hi with ⟨rfl, rfl⟩ | ⟨-, hi⟩
  · exact hnew
  unfold assemblyOf at hi
  cases hassembly : get buffers f.messageId with
  | none =>
    rw [hassembly] at hi
    cases hi
  | some a =>
    rw [hassembly] at hi
    obtain ⟨other, hother, hall⟩ := h _ a hassembly
    obtain rfl := Option.some.inj (hlast.symm.trans hother)
    exact hall i data hi

lemma Fed.insertFragment (h : Fed host past buffers) {now : ℕ} :
    Fed host past (insertFragment buffers f now).1 ∧
      ∀ payload, (insertFragment buffers f now).2 = .ok (some payload) →
        ∃ parts, payload = flatten parts ∧
          ∀ i data, parts[i]? = some data → Delivered host past peer f.messageId i data := by
  have hgrown (a : FragmentAssembly) (ha : a.fragments =
      (assemblyOf buffers f now).fragments.insert f.fragmentIndex f.data) :
      Fed host past (buffers.insert f.messageId a) := by
    intro id a' h'
    rcases of_get_insert h' with ⟨rfl, rfl⟩ | ⟨-, h'⟩
    · exact ⟨peer, hlast, fun i data hi => h.held hlast hnew (ha ▸ hi)⟩
    · exact h id a' h'
  unfold OfflineProtocol.insertFragment
  dsimp only
  split_ifs
  · exact ⟨h, by simp⟩
  · exact ⟨h.erase, by simp⟩
  · cases hparts : payloadsBelow ((assemblyOf buffers f now).fragments.insert f.fragmentIndex
        f.data) (assemblyOf buffers f now).totalFragments with
    | error e => exact ⟨hgrown _ rfl, by simp⟩
    | ok parts =>
      refine ⟨(hgrown _ rfl).erase, fun payload hout => ⟨parts, ?_, fun i data hi => ?_⟩⟩
      · exact (Option.some.inj (Except.ok.inj hout)).symm
      · exact h.held hlast hnew ((payloadsBelow_get hparts).2 i data hi)
  · exact ⟨hgrown _ rfl, by simp⟩

end

lemma deserializeWithin_ok (h : deserializeWithin host payload = .ok (some message)) :
    host.deserialize payload = .ok message := by
  unfold deserializeWithin at h
  split_ifs at h
  cases hd : host.deserialize payload with
  | error e =>
    rw [hd] at h
    cases h
  | ok m =>
    rw [hd] at h
    cases h
    rfl

/-- Only a fragment that goes into an assembly has to come from the peer before. -/
lemma Fed.processFragment {a : Arrival}
    (h : Fed host (a :: past) (cleanupFragmentBuffers buffers a.now))
    (hf : decodeFragment host a.bytes = .ok f) :
    let r := processFragment host buffers a.order a.now a.bytes
    Fed host (a :: past) r.1 ∧
      ∀ message, r.2 = .ok (some message) → Attributed host (a :: past) ⟨message, a.peer⟩ := by
  have hnew : Delivered host (a :: past) a.peer f.messageId f.fragmentIndex f.data :=
    ⟨a, (.head _), rfl, f, hf, rfl, rfl, rfl⟩
  unfold OfflineProtocol.processFragment
  simp only [hf]
  split_ifs with hcount hindex hone
  · exact ⟨h, nofun⟩
  · exact ⟨h, nofun⟩
  · refine ⟨h, fun message hout => ⟨f.messageId, [f.data], ?_, fun i data hi => ?_⟩⟩
    · rw [flatten_singleton]
      exact deserializeWithin_ok hout
    rw [getElem?_singleton] at hi
    split_ifs at hi with hzero
    rw [← Option.some.inj hi, show i = f.fragmentIndex by omega]
    exact hnew
  · have hlast : lastPeer host (a :: past) f.messageId = some a.peer := by
      simp [lastPeer, isOf, hf, not_lt.1 hcount, not_le.1 hindex, hone]
    obtain ⟨hfed, hpayload⟩ := (h.evict a.order a.now f.messageId).insertFragment hlast hnew
    generalize OfflineProtocol.insertFragment _ f a.now = r at hfed hpayload
    obtain ⟨left, outcome⟩ := r
    cases outcome with
    | error e => exact ⟨hfed, nofun⟩
    | ok completed =>
      cases completed with
      | none => exact ⟨hfed, nofun⟩
      | some payload =>
        refine ⟨hfed, fun message hout => ?_⟩
        obtain ⟨parts, rfl, hparts⟩ := hpayload payload rfl
        exact ⟨f.messageId, parts, deserializeWithin_ok hout, hparts⟩

/-- A fragment from the same peer keeps what was fed so far. -/
lemma Fed.arrive (h : Fed host w.past w.buffers) (hsame : SamePeer host w a) :
    Fed host (a :: w.past) (cleanupFragmentBuffers w.buffers a.now) := by
  intro id s hs
  have hold : get w.buffers id = some s := by
    rw [cleanupFragmentBuffers, get_retain] at hs
    exact (Option.filter_eq_some_iff.1 hs).1
  obtain ⟨peer, hpeer, hall⟩ := h id s hold
  refine ⟨peer, ?_, fun i data hi => (hall i data hi).later (subset_cons_self a w.past)⟩
  unfold lastPeer
  rw [find?_cons]
  cases hof : isOf host id a with
  | true => exact (hsame id (mem_of_get hs) hof).symm.trans hpeer
  | false => exact hpeer

lemma Fed.step (h : Fed host w.past w.buffers) (hsame : SamePeer host w a) :
    Fed host (a :: w.past) (w.onFragmentReceivedFrom host a).1.buffers ∧
      ∀ r ∈ (w.onFragmentReceivedFrom host a).2, Attributed host (a :: w.past) r := by
  have harrived := h.arrive hsame
  unfold onFragmentReceivedFrom
  cases hf : decodeFragment host a.bytes with
  | error e =>
    simp only [OfflineProtocol.processFragment, hf]
    exact ⟨harrived, nofun⟩
  | ok f =>
    obtain ⟨hfed, hmessage⟩ := harrived.processFragment hf
    refine ⟨hfed, fun r hr => ?_⟩
    generalize OfflineProtocol.processFragment host w.buffers a.order a.now a.bytes = out
      at hmessage hr
    obtain ⟨left, outcome⟩ := out
    cases outcome with
    | error e => cases hr
    | ok completed =>
      cases completed with
      | none => cases hr
      | some message =>
        split_ifs at hr
        · cases hr
        obtain rfl := mem_singleton.1 hr
        exact hmessage message rfl

lemma past_runSteps (w arrivals) :
    (runSteps (onFragmentReceivedFrom host) w arrivals).1.past = arrivals.reverse ++ w.past := by
  induction arrivals generalizing w with
  | nil => rfl
  | cons a arrivals ih =>
    rw [runSteps, ih, reverse_cons, append_assoc]
    rfl

/-- In every run in which the fragments of a message under assembly come from
one peer, a message is attributed to the peer that handed over all of it. -/
theorem messages_attributed (host : BleHost M) (arrivals : List Arrival)
    (h : AlongSteps (onFragmentReceivedFrom host) (SamePeer host) ⟨∅, []⟩ arrivals) :
    ∀ r ∈ (runSteps (onFragmentReceivedFrom host) ⟨∅, []⟩ arrivals).2,
      Attributed host arrivals r := by
  let I (w : BleReceiver) (es : List (Received M)) : Prop :=
    Fed host w.past w.buffers ∧ ∀ r ∈ es, Attributed host w.past r
  have hstep (w a es) (hw : I w es) (hsame : SamePeer host w a) :
      I (w.onFragmentReceivedFrom host a).1 (es ++ (w.onFragmentReceivedFrom host a).2) := by
    obtain ⟨hfed, hnew⟩ := hw.1.step hsame
    exact ⟨hfed, forall_mem_append.2 ⟨fun r hold => (hw.2 r hold).later (subset_cons_self a w.past),
      hnew⟩⟩
  have hstart : I ⟨∅, []⟩ [] := ⟨fun id a ha => (by cases ha), fun r hr => (by cases hr)⟩
  intro r hr
  refine ((runSteps_invariant hstep h hstart).2 r hr).later fun a ha => ?_
  rw [past_runSteps, append_nil, mem_reverse] at ha
  exact ha

/-- Message ids as UTF-8, and messages as the transports read them. -/
def wireHost : BleHost (Wire.Message Unit Unit Unit) where
  fromUtf8 := Postcard.fromUtf8
  deserialize bytes := (Wire.deserializeMessage Wire.plainCodecs bytes).mapError
    fun _ => .deserialization

/-- A text of alice to bob. -/
def hiMessage : Wire.Message Unit Unit Unit where
  id := ⟨[1, 2, 3, 4, 5, 6, 7, 8, 9, 10, 11, 12, 13, 14, 15, 16], rfl⟩
  sender := ⟨"alice", by rfl⟩
  recipient := ⟨"bob", by rfl⟩
  appId := ⟨"app", by rfl⟩
  priority := .medium
  ttl := 8
  hopCount := 0
  timestamp := 1700000000000
  lamportClock := 1
  contentType := .text
  content := "hi"
  binaryContent := none
  mediaMetadata := none
  metadata := .collect []
  requiresAck := true
  replyToMsg := none
  forwardedFrom := none
  replyContext := none
  transportPeerId := none
  wireCodec := .json

/-- The 52 bytes of its binary frame. -/
def hiBytes : Bytes :=
  [0xF5, 1, 2, 3, 4, 5, 6, 7, 8, 9, 10, 11, 12, 13, 14, 15, 16, 5, 97, 108, 105, 99, 101, 3, 98,
    111, 98, 3, 97, 112, 112, 1, 8, 0, 128, 160, 171, 254, 249, 98, 1, 0, 2, 104, 105, 0, 0, 0, 1,
    0, 0, 0]

/-- The frame in two fragments of a message `m`. -/
def halves (peer peer' : String) : List Arrival :=
  [⟨[79, 80, 1, 1, 109, 0, 0, 2, 0, 26, 0] ++ hiBytes.take 26, peer, 0, []⟩,
    ⟨[79, 80, 1, 1, 109, 1, 0, 2, 0, 26, 0] ++ hiBytes.drop 26, peer', 5, []⟩]

theorem messages_attributed_alice :
    Attributed wireHost (halves "alice" "alice") ⟨hiMessage, "alice"⟩ := by
  refine messages_attributed wireHost (halves "alice" "alice") ⟨?_, ?_, trivial⟩ _
    (by decide +kernel)
  · intro id hid
    cases hid
  intro id hid hof
  have hnames : ∀ id ∈ (cleanupFragmentBuffers ((⟨∅, []⟩ : BleReceiver).onFragmentReceivedFrom
      wireHost ((halves "alice" "alice").head (by decide))).1.buffers 5).keys, id = "m" := by
    decide +kernel
  rw [hnames id (AList.mem_keys.1 hid)]
  decide +kernel

/-- The first fragment comes from another peer than the second, and the message
made of both counts as the second's. -/
theorem message_attributed_to_completing_peer :
    hiMessage.toWireV1Bytes Wire.plainCodecs = .ok hiBytes ∧
    ⟨hiMessage, "alice"⟩ ∈ (runSteps (onFragmentReceivedFrom wireHost) ⟨∅, []⟩
      (halves "mallory" "alice")).2 ∧
    ¬Attributed wireHost (halves "mallory" "alice") ⟨hiMessage, "alice"⟩ := by
  refine ⟨by decide +kernel, by decide +kernel, ?_⟩
  rintro ⟨id, parts, hparts, hall⟩
  cases parts with
  | nil => exact absurd hparts (by decide +kernel)
  | cons first parts =>
    obtain ⟨a, ha, hpeer, f, hf, -, hindex, -⟩ := hall 0 first rfl
    rcases mem_pair.1 ha with rfl | rfl
    · exact absurd hpeer (by decide)
    have hsecond : (decodeFragment wireHost
        ([79, 80, 1, 1, 109, 1, 0, 2, 0, 26, 0] ++ hiBytes.drop 26)).map (·.fragmentIndex) =
          .ok 1 := by
      decide +kernel
    rw [hf] at hsecond
    exact absurd (hindex.symm.trans (Except.ok.inj hsecond)) (by decide)

end BleReceiver

end OfflineProtocol
