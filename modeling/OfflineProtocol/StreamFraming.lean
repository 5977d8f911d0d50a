import OfflineProtocol.ByteFraming
import OfflineProtocol.EventTrace
import Mathlib.Tactic.SplitIfs

/-! Peer streams: where a frame ends, and who the peer is. The reader takes the
bytes of a stream as they come, in whatever pieces, and yields the events they
complete. -/
namespace OfflineProtocol
open ByteFraming EventTrace List

def peerStreamLengthPrefixLen : ℕ := 4

def peerStreamMaxFrameBytes : ℕ := 1024 * 1024

def peerStreamPreambleFloor : ℕ := 96

inductive FrameError
  | sendFailed (reason : String)
  | messageTooLarge (length ceiling : ℕ)
  deriving DecidableEq

def frame (body : Bytes) : Except FrameError Bytes :=
  if body = [] then .error (.sendFailed "peer stream: a frame body is at least one byte")
  else if peerStreamMaxFrameBytes < body.length then
    .error (.messageTooLarge body.length peerStreamMaxFrameBytes)
  else .ok (lengthPrefixed peerStreamLengthPrefixLen body)

inductive CloseReason
  | zeroLength
  | overCeiling (length : ℕ)
  | preambleUnderFloor (length : ℕ)
  | preambleRejected
  | addressMismatch (expected derived : String)

inductive StreamEvent
  | announced (address : String)
  | message (sender : String) (body : Bytes)
  | closed (reason : CloseReason)

structure PeerStreamReader where
  verify : Bytes → Option String
  expected : Option String
  buffer : Bytes
  announced : Option String
  closed : Bool

namespace PeerStreamReader

def new (verify : Bytes → Option String) (expected : Option String) : PeerStreamReader :=
  ⟨verify, expected, [], none, false⟩

def refusePrefix (announced : Option String) (length : ℕ) : Option CloseReason :=
  if length = 0 then some .zeroLength
  else if peerStreamMaxFrameBytes < length then some (.overCeiling length)
  else if announced.isNone ∧ length < peerStreamPreambleFloor then
    some (.preambleUnderFloor length)
  else none

variable (verify : Bytes → Option String) (expected : Option String)

def accept (announced : Option String) (body : Bytes) :
    Except CloseReason (String × StreamEvent) :=
  match announced with
  | some sender => .ok (sender, .message sender body)
  | none =>
    match verify body with
    | none => .error .preambleRejected
    | some derived =>
      match expected with
      | some address =>
        if address ≠ derived then .error (.addressMismatch address derived)
        else .ok (derived, .announced derived)
      | none => .ok (derived, .announced derived)

/-- What a read leaves: whom the stream has announced, the bytes that wait for
the rest of their frame (`none` once it is closed), and the events. -/
structure Reading where
  announced : Option String
  waiting : Option Bytes
  events : List StreamEvent

def Reading.close (announced : Option String) (reason : CloseReason) : Reading :=
  ⟨announced, none, [.closed reason]⟩

def Reading.after (event : StreamEvent) (r : Reading) : Reading :=
  { r with events := event :: r.events }

def consume (announced : Option String) (pending : Bytes) : Reading :=
  if _h : pending.length < peerStreamLengthPrefixLen then ⟨announced, some pending, []⟩
  else
    let length := fromBeBytes (pending.take peerStreamLengthPrefixLen)
    match refusePrefix announced length with
    | some reason => .close announced reason
    | none =>
      if pending.length < peerStreamLengthPrefixLen + length then ⟨announced, some pending, []⟩
      else
        match accept verify expected announced
            ((pending.drop peerStreamLengthPrefixLen).take length) with
        | .error reason => .close announced reason
        | .ok (sender, event) =>
          (consume (some sender) (pending.drop (peerStreamLengthPrefixLen + length))).after event
termination_by pending.length
decreasing_by
  rw [length_drop]
  simp only [peerStreamLengthPrefixLen] at *
  omega

def feed (r : PeerStreamReader) (bytes : Bytes) : PeerStreamReader × List StreamEvent :=
  if r.closed then (r, [])
  else
    let reading := consume r.verify r.expected r.announced (r.buffer ++ bytes)
    ({ r with
      announced := reading.announced
      buffer := reading.waiting.getD []
      closed := reading.waiting.isNone }, reading.events)

variable {verify expected} {announced : Option String} {pending : Bytes}

def Waits (announced : Option String) (pending : Bytes) : Prop :=
  pending.length < peerStreamLengthPrefixLen ∨
    refusePrefix announced (fromBeBytes (pending.take peerStreamLengthPrefixLen)) = none ∧
    pending.length <
      peerStreamLengthPrefixLen + fromBeBytes (pending.take peerStreamLengthPrefixLen)

lemma consume_waits (h : Waits announced pending) :
    consume verify expected announced pending = ⟨announced, some pending, []⟩ := by
  rw [consume]
  split_ifs with hshort
  · rfl
  obtain ⟨hpass, hlong⟩ := h.resolve_left hshort
  simp only [hpass, if_pos hlong]

lemma consume_refused (hshort : ¬pending.length < peerStreamLengthPrefixLen)
    (h : refusePrefix announced (fromBeBytes (pending.take peerStreamLengthPrefixLen)) =
      some reason) : consume verify expected announced pending = .close announced reason := by
  rw [consume, dif_neg hshort]
  simp only [h]

lemma consume_frame {length : ℕ} (hbytes : bytes.length = 4)
    (hlength : fromBeBytes bytes = length) (hbody : body.length = length)
    (hpass : refusePrefix announced length = none) :
    consume verify expected announced (bytes ++ body ++ rest) =
      match accept verify expected announced body with
      | .error reason => .close announced reason
      | .ok (sender, event) => (consume verify expected (some sender) rest).after event := by
  have hwhole : (bytes ++ body ++ rest).length = 4 + length + rest.length := by
    rw [length_append, length_append, hbytes, hbody]
  have hhead : (bytes ++ body ++ rest).take 4 = bytes := by
    rw [append_assoc, take_append_of_le_length hbytes.ge, take_of_length_le hbytes.le]
  have hbodyA : ((bytes ++ body ++ rest).drop 4).take length = body := by
    rw [append_assoc, ← hbytes, drop_left, ← hbody, take_left]
  have hrest : (bytes ++ body ++ rest).drop (4 + length) = rest := by
    rw [← hbytes, ← hbody, ← length_append, drop_left]
  rw [consume, dif_neg (by simp only [peerStreamLengthPrefixLen]; omega)]
  simp only [peerStreamLengthPrefixLen, hhead, hlength, hpass, hbodyA, hrest]
  rw [if_neg (by omega)]

lemma pending_induction {motive : Option String → Bytes → Prop}
    (waits : ∀ {announced pending}, Waits announced pending → motive announced pending)
    (refused : ∀ {announced pending reason}, ¬pending.length < peerStreamLengthPrefixLen →
      refusePrefix announced (fromBeBytes (pending.take peerStreamLengthPrefixLen)) =
        some reason → motive announced pending)
    (whole : ∀ {announced bytes body rest}, bytes.length = 4 → fromBeBytes bytes = body.length →
      refusePrefix announced body.length = none → (∀ sender, motive (some sender) rest) →
      motive announced (bytes ++ body ++ rest)) (announced pending) : motive announced pending := by
  -- on the number of bytes: a whole frame at the front leaves fewer
  induction hn : pending.length using Nat.strong_induction_on generalizing announced pending with
  | _ n ih =>
    by_cases hshort : pending.length < peerStreamLengthPrefixLen
    · exact waits (Or.inl hshort)
    cases hpass : refusePrefix announced (fromBeBytes (pending.take peerStreamLengthPrefixLen)) with
    | some reason => exact refused hshort hpass
    | none =>
      by_cases hlong : pending.length <
          peerStreamLengthPrefixLen + fromBeBytes (pending.take peerStreamLengthPrefixLen)
      · exact waits (Or.inr ⟨hpass, hlong⟩)
      simp only [peerStreamLengthPrefixLen] at hshort hpass hlong
      have hlen : ((pending.drop 4).take (fromBeBytes (pending.take 4))).length =
          fromBeBytes (pending.take 4) := by
        rw [length_take, length_drop]
        omega
      have hsplit : pending.take 4 ++ (pending.drop 4).take (fromBeBytes (pending.take 4)) ++
          (pending.drop 4).drop (fromBeBytes (pending.take 4)) = pending := by
        rw [append_assoc, take_append_drop, take_append_drop]
      rw [← hsplit]
      refine whole ?_ hlen.symm (by rwa [hlen]) fun sender => ih _ ?_ _ _ rfl
      · rw [length_take]
        omega
      rw [length_drop, length_drop]
      omega

def Reading.more (r : Reading) (verify : Bytes → Option String) (expected : Option String)
    (bytes : Bytes) : Reading :=
  match r.waiting with
  | none => r
  | some waiting =>
    { consume verify expected r.announced (waiting ++ bytes) with
      events := r.events ++ (consume verify expected r.announced (waiting ++ bytes)).events }

lemma Reading.more_after (event) (r : Reading) (bytes) :
    (r.after event).more verify expected bytes = (r.more verify expected bytes).after event := by
  obtain ⟨announced, waiting, events⟩ := r
  cases waiting with
  | none => rfl
  | some waiting => rfl

/-- Where the bytes are cut makes no difference. -/
lemma consume_append {announced : Option String} :
    consume verify expected announced (pending ++ bytes) =
      (consume verify expected announced pending).more verify expected bytes := by
  induction announced, pending using pending_induction with
  | waits hwait =>
    rw [consume_waits hwait]
    simp only [Reading.more, nil_append]
  | @refused announced pending reason hshort hrefused =>
    have htake : (pending ++ bytes).take peerStreamLengthPrefixLen =
        pending.take peerStreamLengthPrefixLen :=
      take_append_of_le_length (not_lt.1 hshort)
    rw [consume_refused hshort hrefused, consume_refused ?_ (htake ▸ hrefused)]
    · rfl
    rw [length_append]
    omega
  | @whole announced prefixed body rest hprefixed hlength hpass ih =>
    rw [append_assoc, consume_frame hprefixed hlength rfl hpass,
      consume_frame hprefixed hlength rfl hpass]
    cases accept verify expected announced body with
    | error reason => rfl
    | ok result =>
      dsimp only
      rw [ih, Reading.more_after]

lemma consume_left {announced : Option String} {pending} :
    ∀ waiting ∈ (consume verify expected announced pending).waiting,
      Waits (consume verify expected announced pending).announced waiting := by
  intro waiting h
  induction announced, pending using pending_induction with
  | waits hwait =>
    rw [consume_waits hwait] at h ⊢
    obtain rfl := Option.some.inj h
    exact hwait
  | refused hshort hrefused =>
    rw [consume_refused hshort hrefused] at h
    cases h
  | @whole announced prefixed body rest hprefixed hlength hpass ih =>
    rw [consume_frame hprefixed hlength rfl hpass] at h ⊢
    cases haccept : accept verify expected announced body with
    | error reason =>
      rw [haccept] at h
      cases h
    | ok result =>
      rw [haccept] at h
      exact ih _ h

def Settled (r : PeerStreamReader) : Prop :=
  if r.closed then r.buffer = [] else Waits r.announced r.buffer

lemma new_settled (verify expected) : (new verify expected).Settled := by
  exact Or.inl (Nat.succ_pos 3)

lemma feed_settled (r : PeerStreamReader) (bytes) (h : r.Settled) : (r.feed bytes).1.Settled := by
  unfold feed
  split_ifs with hclosed
  · exact h
  cases hwaiting : (consume r.verify r.expected r.announced (r.buffer ++ bytes)).waiting with
  | none =>
    simp only [Settled, hwaiting]
    rfl
  | some waiting =>
    simp only [Settled, hwaiting]
    exact consume_left waiting hwaiting

lemma feed_nil {r : PeerStreamReader} (h : r.Settled) : r.feed [] = (r, []) := by
  obtain ⟨verify, expected, buffer, announced, closed⟩ := r
  cases closed with
  | true => rfl
  | false =>
    simp only [feed, append_nil]
    rw [consume_waits h]
    rfl

lemma feed_append (r : PeerStreamReader) (first second) : r.feed (first ++ second) =
      (((r.feed first).1.feed second).1, (r.feed first).2 ++ ((r.feed first).1.feed second).2) := by
  obtain ⟨verify, expected, buffer, announced, closed⟩ := r
  cases closed with
  | true => rfl
  | false =>
    simp only [feed, Bool.false_eq_true, if_false]
    rw [← append_assoc, consume_append]
    obtain ⟨now, waiting, events⟩ := consume verify expected announced (buffer ++ first)
    cases waiting with
    | none => simp [Reading.more]
    | some waiting => simp [Reading.more]

/-- Feeding the pieces of a stream is feeding the stream. -/
lemma run_eq_feed {r : PeerStreamReader} (h : r.Settled) (chunks : List Bytes) :
    runSteps feed r chunks = r.feed chunks.flatten := by
  induction chunks generalizing r with
  | nil => exact (feed_nil h).symm
  | cons chunk chunks ih =>
    rw [runSteps, ih (feed_settled r chunk h), flatten_cons, feed_append]

/-- A closing is the end, and a message is not the first event of a stream that
has announced nobody. -/
structure Ordered (announced : Option String) (events : List StreamEvent) : Prop where
  closing : events.Pairwise fun e _ => ∀ reason, e ≠ .closed reason
  first : announced = none → ∀ sender body, events.head? ≠ some (.message sender body)

lemma accept_event (h : accept verify expected announced body = .ok (sender, event)) :
    (∀ reason, event ≠ .closed reason) ∧
      (announced = none → ∀ sender body, event ≠ .message sender body) := by
  unfold accept at h
  split at h
  · cases h
    exact ⟨nofun, nofun⟩
  split at h
  · cases h
  split at h
  · split_ifs at h
    cases h
    exact ⟨nofun, fun _ => nofun⟩
  cases h
  exact ⟨nofun, fun _ => nofun⟩

lemma consume_ordered (announced : Option String) (pending) :
    Ordered announced (consume verify expected announced pending).events := by
  induction announced, pending using pending_induction with
  | waits hwait =>
    rw [consume_waits hwait]
    exact ⟨List.Pairwise.nil, nofun⟩
  | refused hshort hrefused =>
    rw [consume_refused hshort hrefused]
    exact ⟨pairwise_singleton _ _, nofun⟩
  | @whole announced _ body _ hprefixed hlength hpass ih =>
    rw [consume_frame hprefixed hlength rfl hpass]
    cases haccept : accept verify expected announced body with
    | error reason => exact ⟨pairwise_singleton _ _, nofun⟩
    | ok result =>
      obtain ⟨hopen, hfirst⟩ := accept_event haccept
      refine ⟨pairwise_cons.2 ⟨fun _ _ => hopen, (ih result.1).closing⟩, ?_⟩
      exact fun hnone sender body h => hfirst hnone sender body (Option.some.inj h)

lemma Ordered.closed_last
    (h : Ordered announced events) (hsplit : events = earlier ++ .closed reason :: later) :
    later = [] := by
  have hafter := (pairwise_append.1 (hsplit ▸ h.closing)).2.1
  cases later with
  | nil => rfl
  | cons e later => exact absurd rfl ((pairwise_cons.1 hafter).1 e (.head _) reason)

lemma Ordered.announced_first (h : Ordered none events)
    (hsplit : events = earlier ++ .message sender body :: later) :
    ∃ address, StreamEvent.announced address ∈ earlier := by
  subst hsplit
  cases earlier with
  | nil => exact absurd rfl (h.first rfl sender body)
  | cons e earlier =>
    cases e with
    | announced address => exact ⟨address, (.head _)⟩
    | message sender' body' => exact absurd rfl (h.first rfl sender' body')
    | closed reason =>
      have hlast := h.closed_last (nil_append _).symm
      simp at hlast

lemma frame_ok (h : frame body = .ok bytes) :
    body ≠ [] ∧ body.length ≤ peerStreamMaxFrameBytes ∧ bytes = lengthPrefixed 4 body := by
  unfold frame at h
  split_ifs at h with hnil hlarge
  exact ⟨hnil, not_lt.1 hlarge, (Except.ok.inj h).symm⟩

lemma consume_framed {body bytes : Bytes} (h : frame body = .ok bytes) (rest)
    (hfloor : announced = none → peerStreamPreambleFloor ≤ body.length) :
    consume verify expected announced (bytes ++ rest) =
      match accept verify expected announced body with
      | .error reason => .close announced reason
      | .ok (sender, event) => (consume verify expected (some sender) rest).after event := by
  obtain ⟨hnil, hmax, rfl⟩ := frame_ok h
  have hpos : body.length ≠ 0 := fun hzero => hnil (length_eq_zero_iff.1 hzero)
  have hpass : refusePrefix announced body.length = none := by
    unfold refusePrefix
    rw [if_neg hpos, if_neg (not_lt.2 hmax), if_neg]
    rintro ⟨hnone, hunder⟩
    exact absurd (hfloor (Option.isNone_iff_eq_none.1 hnone)) (not_le.2 hunder)
  have hfits : body.length < 256 ^ 4 := by
    unfold peerStreamMaxFrameBytes at hmax
    omega
  exact consume_frame beBytes_length (fromBeBytes_beBytes hfits) rfl hpass

lemma consume_messages {bodies frames : List Bytes} (h : bodies.mapM frame = .ok frames) :
    (consume verify expected (some sender) frames.flatten).events =
      bodies.map (.message sender) := by
  induction bodies generalizing frames with
  | nil =>
    rw [mapM_nil] at h
    obtain rfl := Except.ok.inj h
    rw [flatten_nil, consume_waits (Or.inl (by decide))]
    rfl
  | cons body bodies ih =>
    rw [mapM_cons] at h
    cases hbody : frame body with
    | error e =>
      rw [hbody] at h
      cases h
    | ok bytes =>
      cases hbod : bodies.mapM frame with
      | error e =>
        rw [hbody, hbod] at h
        cases h
      | ok others =>
        rw [hbody, hbod] at h
        obtain rfl := Except.ok.inj h
        rw [flatten_cons, consume_framed hbody _ (fun hnone => by cases hnone)]
        simp only [accept, Reading.after, map_cons, ih hbod]

structure Acceptable (verify : Bytes → Option String) (expected : Option String)
    (preamble : Bytes) (address : String) : Prop where
  floor : peerStreamPreambleFloor ≤ preamble.length
  verified : verify preamble = some address
  expectedAddress : ∀ other ∈ expected, other = address

lemma Acceptable.accepted (h : Acceptable verify expected preamble address) :
    accept verify expected none preamble = .ok (address, .announced address) := by
  unfold accept
  simp only [h.verified]
  cases hexpected : expected with
  | none => rfl
  | some other =>
    obtain rfl := h.expectedAddress other hexpected
    exact if_neg (not_not.2 rfl)

/-- What an event of a stream rests on: an announcement on a preamble that was verified, a message
on an announcement of its sender. -/
def Vouched (verify : Bytes → Option String) (expected announced : Option String)
    (pending : Bytes) (events : List StreamEvent) : StreamEvent → Prop
  | .announced address => announced = none ∧
      ∃ preamble, preamble <:+: pending ∧ Acceptable verify expected preamble address
  | .message sender body => body <:+: pending ∧ body ≠ [] ∧ body.length ≤ peerStreamMaxFrameBytes ∧
      (announced = some sender ∨ announced = none ∧ .announced sender ∈ events)
  | .closed _ => True

lemma refusePrefix_none (h : refusePrefix announced n = none) :
    n ≠ 0 ∧ n ≤ peerStreamMaxFrameBytes ∧ (announced = none → peerStreamPreambleFloor ≤ n) := by
  unfold refusePrefix at h
  split_ifs at h with hzero hover hunder
  exact ⟨hzero, not_lt.1 hover, fun hnone => not_lt.1 fun hlt => hunder ⟨by simp [hnone], hlt⟩⟩

lemma accept_vouched (h : accept verify expected announced body = .ok (sender, event))
    (hpass : refusePrefix announced body.length = none) (hbody : body <:+: pending) (events) :
    Vouched verify expected announced pending events event ∧
      (announced = some sender ∨ announced = none ∧ event = .announced sender) := by
  obtain ⟨hpos, hmax, hfloor⟩ := refusePrefix_none hpass
  unfold accept at h
  split at h
  · cases h
    exact ⟨⟨hbody, fun hnil => hpos (by rw [hnil]; rfl), hmax, .inl rfl⟩, .inl rfl⟩
  split at h
  · cases h
  rename_i derived hver
  split at h
  · split_ifs at h with hexp
    cases h
    exact ⟨⟨rfl, body, hbody, hfloor rfl, hver, fun _ ho => Option.some.inj ho ▸ not_not.1 hexp⟩,
      .inr ⟨rfl, rfl⟩⟩
  cases h
  exact ⟨⟨rfl, body, hbody, hfloor rfl, hver, fun _ h => by cases h⟩, .inr ⟨rfl, rfl⟩⟩

lemma consume_vouched (announced : Option String) (pending) :
    let events := (consume verify expected announced pending).events
    (∀ e ∈ events, Vouched verify expected announced pending events e) ∧
      events.Pairwise fun _ e => ∀ address, e ≠ .announced address := by
  induction announced, pending using pending_induction with
  | waits hwait =>
    rw [consume_waits hwait]
    exact ⟨forall_mem_nil _, .nil⟩
  | refused hshort hrefused =>
    rw [consume_refused hshort hrefused]
    exact ⟨forall_mem_singleton.2 trivial, pairwise_singleton _ _⟩
  | @whole announced head body rest hhead hlength hpass ih =>
    rw [consume_frame hhead hlength rfl hpass]
    cases haccept : accept verify expected announced body with
    | error reason => exact ⟨forall_mem_singleton.2 trivial, pairwise_singleton _ _⟩
    | ok result =>
      obtain ⟨hvouched, halone⟩ := ih result.1
      have hbody : body <:+: head ++ body ++ rest := ⟨head, rest, rfl⟩
      have hrest : rest <:+: head ++ body ++ rest := (suffix_append _ _).isInfix
      obtain ⟨hfirst, hsender⟩ := accept_vouched haccept hpass hbody _
      refine ⟨forall_mem_cons.2 ⟨hfirst, fun e he => ?_⟩, pairwise_cons.2 ⟨?_, halone⟩⟩
      · have hlater := hvouched e he
        cases e with
        | announced address => cases hlater.1
        | closed reason => trivial
        | message sender body' =>
          obtain ⟨hin, hne, hmax, hby⟩ := hlater
          obtain hby := Option.some.inj (hby.resolve_right fun h => by cases h.1)
          refine ⟨hin.trans hrest, hne, hmax, hsender.imp (hby ▸ ·) fun h => ⟨h.1, ?_⟩⟩
          rw [← hby, ← h.2]
          exact .head _
      · rintro e he address rfl
        cases (hvouched _ he).1

/-- Whatever bytes arrive in whatever pieces, a message is surfaced only under an address that a
verified preamble of the same stream announced, and one stream announces one address. -/
theorem senders_announced (verify : Bytes → Option String) (expected : Option String)
    (chunks : List Bytes) :
    let events := (runSteps feed (new verify expected) chunks).2
    (∀ e ∈ events, Vouched verify expected none chunks.flatten events e) ∧
      events.Pairwise fun _ e => ∀ address, e ≠ .announced address := by
  rw [run_eq_feed (new_settled verify expected)]
  exact consume_vouched none chunks.flatten

/-- Chunking never shows, frames come out as they went in, a peer is announced
before its messages, a closing is the end, and no more than a frame waits. -/
theorem stream_framing (verify : Bytes → Option String) (expected : Option String) :
    (∀ chunks chunks' : List Bytes, chunks.flatten = chunks'.flatten →
      (runSteps feed (new verify expected) chunks).2 =
        (runSteps feed (new verify expected) chunks').2) ∧
    (∀ (preamble first : Bytes) (address : String) (bodies frames chunks : List Bytes),
      Acceptable verify expected preamble address →
      frame preamble = .ok first → bodies.mapM frame = .ok frames →
      chunks.flatten = first ++ frames.flatten →
      (runSteps feed (new verify expected) chunks).2 =
        .announced address :: bodies.map (.message address)) ∧
    ∀ chunks : List Bytes,
      (∀ earlier later sender body, (runSteps feed (new verify expected) chunks).2 =
          earlier ++ .message sender body :: later →
        ∃ address, StreamEvent.announced address ∈ earlier) ∧
      (∀ earlier later reason, (runSteps feed (new verify expected) chunks).2 =
        earlier ++ .closed reason :: later → later = []) ∧
      ∀ chunk : Bytes, ((runSteps feed (new verify expected) chunks).1.buffer ++ chunk).length ≤
        peerStreamLengthPrefixLen + peerStreamMaxFrameBytes + chunk.length := by
  have hrun := run_eq_feed (new_settled verify expected)
  have hevent (stream : Bytes) : ((new verify expected).feed stream).2 =
      (consume verify expected none stream).events := rfl
  refine ⟨?_, ?_, fun chunks => ⟨?_, ?_, ?_⟩⟩
  · intro chunks chunks' hsame
    rw [hrun, hrun, hsame]
  · intro preamble first address bodies frames chunks hpreamble hfirst hframes hstream
    rw [hrun, hstream, hevent, consume_framed hfirst _ (fun _ => hpreamble.floor),
      hpreamble.accepted]
    simp only [Reading.after, consume_messages hframes]
  · intro earlier later sender body hsplit
    rw [hrun, hevent] at hsplit
    exact (consume_ordered none _).announced_first hsplit
  · intro earlier later reason hsplit
    rw [hrun, hevent] at hsplit
    exact (consume_ordered none _).closed_last hsplit
  intro chunk
  have hsettled : (runSteps feed (new verify expected) chunks).1.Settled :=
    runSteps_preserves (P := Settled) feed_settled chunks (new_settled verify expected)
  generalize (runSteps feed (new verify expected) chunks).1 = r at hsettled
  rw [length_append]
  apply Nat.add_le_add_right
  unfold Settled at hsettled
  split_ifs at hsettled with hclosed
  · rw [hsettled]
    exact Nat.zero_le _
  rcases hsettled with hshort | ⟨hpass, hlong⟩
  · omega
  have hmax : fromBeBytes (r.buffer.take peerStreamLengthPrefixLen) ≤
      peerStreamMaxFrameBytes := by
    unfold refusePrefix at hpass
    split_ifs at hpass with _ hover
    exact not_lt.1 hover
  omega

/-- A preamble and a message, cut inside the first length and inside the message. -/
theorem stream_framing_hello :
    let stream := lengthPrefixed 4 (replicate 96 7) ++ lengthPrefixed 4 [1, 2]
    (runSteps feed (new (fun _ => some "peer") none)
        [stream.take 3, (stream.drop 3).take 102, stream.drop 105]).2 =
      [.announced "peer", .message "peer" [1, 2]] :=
  (stream_framing (fun _ => some "peer") none).2.1 (replicate 96 7)
    (lengthPrefixed 4 (replicate 96 7)) "peer" [[1, 2]] [lengthPrefixed 4 [1, 2]] _
    ⟨by decide, rfl, fun _ h => absurd h (Option.not_mem_none _)⟩ (by decide) (by decide)
    (by decide)

end PeerStreamReader

end OfflineProtocol
