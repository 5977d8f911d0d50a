import OfflineProtocol.ConsumerOrder

/-!
# What a hostile provider can make a consumer hold

The limits on subscriptions, tracks and what a track keeps hold along every run. A track
takes its position from the frames, and `advance` adds one to it in 64 bits. The addition
overflows at the largest number.
-/

namespace OfflineProtocol
open KeyedTable EventTrace Finset List

/-- The limits of a track that may still have seqs to advance through. -/
structure Track.Fits (t : Track) : Prop where
  keys : t.keys.entries.length ≤ maxConsumerTrackedKeys
  ahead : t.seenAhead.card ≤ maxLogSeenAhead
  retired : t.retired.length ≤ maxRetiredPerTopic
  named : ∀ seq ∈ t.seenAhead, seq + 1 < 2 ^ 64
  position : t.contiguous + 1 < 2 ^ 64

/-- What is seen ahead lies above the position and above the seq next to it. -/
structure Track.Bounded (t : Track) : Prop extends t.Fits where
  above : ∀ seq ∈ t.seenAhead, t.contiguous < seq
  gap : t.contiguous + 1 ∉ t.seenAhead

namespace Track
variable {t : Track} {seq : ℕ}

lemma advanceLoop_spec (contiguous) {seenAhead} (h : seenAhead.card ≤ fuel) :
    let r := advanceLoop fuel contiguous seenAhead
    r.2 ⊆ seenAhead ∧ (r.1 = contiguous ∨ r.1 ∈ seenAhead) ∧ r.1 + 1 ∉ r.2 := by
  -- A pass takes one seq off the set, so its size is fuel enough.
  induction fuel generalizing contiguous seenAhead with
  | zero =>
    obtain rfl := card_eq_zero.1 (Nat.le_zero.1 h)
    exact ⟨le_rfl, .inl rfl, notMem_empty _⟩
  | succ fuel ih =>
    rw [advanceLoop]
    split_ifs with hnext
    · have hcard : (seenAhead.erase (contiguous + 1)).card ≤ fuel := by
        rw [card_erase_of_mem hnext]
        omega
      obtain ⟨hsub, hat, hgap⟩ := ih (contiguous + 1) hcard
      refine ⟨hsub.trans (erase_subset _ _), .inr ?_, hgap⟩
      rcases hat with hat | hat
      · rw [hat]
        exact hnext
      · exact mem_of_mem_erase hat
    · exact ⟨le_rfl, .inl rfl, hnext⟩

lemma Fits.advance (h : t.Fits) : t.advance.Bounded := by
  obtain ⟨hsub, hat, hgap⟩ := advanceLoop_spec t.contiguous (le_refl t.seenAhead.card)
  have hkept : t.advance.seenAhead ⊆ t.seenAhead := (Finset.filter_subset _ _).trans hsub
  refine ⟨⟨h.keys, (card_le_card hkept).trans h.ahead, h.retired, fun s hs =>
    h.named s (hkept hs), ?_⟩, fun s hs => (mem_filter.1 hs).2, fun hs =>
    hgap (mem_filter.1 hs).1⟩
  show (advanceLoop t.seenAhead.card t.contiguous t.seenAhead).1 + 1 < 2 ^ 64
  rcases hat with hat | hat
  · rw [hat]
    exact h.position
  · exact h.named _ hat

lemma forget_bounded (h : t.retired.length ≤ maxRetiredPerTopic) : t.forget.Bounded :=
  ⟨⟨Nat.zero_le _, Nat.zero_le _, h, by simp [forget], by simp [forget]⟩, by simp [forget],
    by simp [forget]⟩

section
variable (h : t.Bounded)
include h

lemma Bounded.onStream (stream) : (t.onStream stream).Bounded := by
  unfold Track.onStream
  split_ifs
  · exact h
  refine forget_bounded (t := { t with stream := _, retired := _ }) ?_
  have hretired := h.retired
  cases t.stream with
  | none => exact hretired
  | some previous =>
    have hle := length_filter_le (fun x => decide (x ≠ previous)) t.retired
    simp only
    split_ifs with hfull
    · rw [length_tail, length_append, length_singleton]
      omega
    · exact not_lt.1 hfull

lemma Bounded.raise (hseq : seq + 1 < 2 ^ 64) : (t.raise seq).Bounded := by
  refine Fits.advance ⟨h.keys, h.ahead, h.retired, h.named, ?_⟩
  have hat := h.position
  show max t.contiguous seq + 1 < 2 ^ 64
  omega

lemma Bounded.takeLatest {key seq} : (t.takeLatest key seq).1.Bounded := by
  have hinsert (hlen : (t.keys.insert key seq).entries.length ≤ maxConsumerTrackedKeys) :
      Bounded { t with keys := t.keys.insert key seq } :=
    ⟨⟨hlen, h.ahead, h.retired, h.named, h.position⟩, h.above, h.gap⟩
  unfold Track.takeLatest
  cases hk : get t.keys key with
  | some held =>
    simp only
    split_ifs
    · exact h
    · exact hinsert ((length_insert_mem (mem_of_get hk)).trans h.keys)
  | none =>
    split_ifs with hfull
    · exact h
    · exact hinsert ((length_insert_le t.keys).trans (not_le.1 hfull))

lemma Bounded.takeCheckpoint (hseq : seq + 1 < 2 ^ 64) : (t.takeCheckpoint seq).1.Bounded := by
  unfold Track.takeCheckpoint
  split_ifs
  · exact h
  · exact Fits.advance ⟨h.keys, h.ahead, h.retired, h.named, hseq⟩

lemma Bounded.takeLog (hseq : seq + 1 < 2 ^ 64) : (t.takeLog seq).1.Bounded := by
  have hnamed : ∀ s ∈ insert seq t.seenAhead, s + 1 < 2 ^ 64 := fun s hs =>
    (mem_insert.1 hs).elim (fun he => he ▸ hseq) (h.named s)
  have hcard := card_insert_le seq t.seenAhead
  have hahead := h.ahead
  unfold Track.takeLog
  split_ifs with hseen
  · exact h
  simp only
  split_ifs with hfull
  -- Over the limit, the position jumps to the lowest seq seen ahead and gives up the gap.
  · split
    · next lowest hmin =>
      have hmem := mem_of_min hmin
      refine Fits.advance ⟨h.keys, ?_, h.retired, fun s hs =>
        hnamed s (mem_of_mem_erase hs), hnamed _ hmem⟩
      rw [card_erase_of_mem hmem]
      omega
    · next hmin => exact absurd (min_eq_top.1 hmin) (insert_ne_empty _ _)
  · exact Fits.advance ⟨h.keys, not_lt.1 hfull, h.retired, hnamed, h.position⟩

end

end Track

namespace Consumer

structure SubBounded (sub : ConsumerSub) : Prop where
  tracks : sub.tracks.entries.length ≤ maxPatternTopics
  each : ∀ topic track, get sub.tracks topic = some track → track.Bounded

structure Bounded (c : Consumer) : Prop where
  subs : c.subs.entries.length ≤ maxConsumerSubscriptions
  each : ∀ subId sub, get c.subs subId = some sub → SubBounded sub

/-- Some track is at the largest 64-bit number, to which `advance` added one. -/
def AtTop (sub : ConsumerSub) : Prop :=
  ∃ topic track, get sub.tracks topic = some track ∧ 2 ^ 64 ≤ track.contiguous + 1

/-- The calls in which an addition overflows: a position passes the top, also one that the
rest of the reply replaces, or the unanswered renewals pass 32 bits. -/
def Overflows (c : Consumer) : ConsumerOp → Prop
  | .handleReply content sender _ => ∃ payload sub n, content.subscribeReply? = some payload ∧
    get c.subs payload.subId = some sub ∧ sub.provider = sender ∧
    AtTop (applyPositions ((livePositions sub payload).take n) sub).1
  | .handleUpdate content sender => ∃ payload sub topic, content.update? = some payload ∧
    get c.subs payload.subId = some sub ∧ sub.provider = sender ∧
    AtTop (receive payload.subId sub topic payload sender).1
  | .tick _ now => ∃ subId sub, get c.subs subId = some sub ∧ reached sub.nextRenewal now ∧
    2 ^ 32 ≤ unansweredNow sub
  | _ => False

/-- A frame from the provider of a `log` subscription names no seq at the top, and no
subscription is renewed over `2 ^ 32` times without an answer. -/
def Modest (c : Consumer) : ConsumerOp → Prop
  | .handleReply content sender _ => ∀ payload ∈ content.subscribeReply?,
    ∀ sub ∈ get c.subs payload.subId, sub.provider = sender → sub.mode = .log →
      ∀ pos ∈ livePositions sub payload, pos.seq + 1 < 2 ^ 64
  | .handleUpdate content sender => ∀ payload ∈ content.update?,
    ∀ sub ∈ get c.subs payload.subId, sub.provider = sender → sub.mode = .log →
      payload.seq + 1 < 2 ^ 64
  | .tick _ now => ∀ subId sub, get c.subs subId = some sub → reached sub.nextRenewal now →
    unansweredNow sub < 2 ^ 32
  | _ => True

variable {c : Consumer} {sub : ConsumerSub} {op : ConsumerOp}

lemma SubBounded.setTrack (h : SubBounded sub)
    (hheld : sub.track topic = some held) (htrack : held.Bounded → track.Bounded) :
    SubBounded (sub.setTrack topic track) := by
  have hbound : held.Bounded := by
    rcases track_cases hheld with hg | ⟨-, rfl⟩
    · exact h.each topic held hg
    · exact Track.forget_bounded (t := .new) (Nat.zero_le _)
  constructor
  · show (sub.tracks.insert topic track).entries.length ≤ maxPatternTopics
    unfold ConsumerSub.track at hheld
    cases hg : get sub.tracks topic with
    | some old => exact (length_insert_mem (mem_of_get hg)).trans h.tracks
    | none =>
      simp only [hg] at hheld
      split_ifs at hheld with _ hfull
      exact (length_insert_le _).trans (not_le.1 hfull)
  · intro other t ht
    by_cases ho : other = topic
    · rw [ho, ConsumerSub.get_setTrack_self] at ht
      exact Option.some.inj ht ▸ htrack hbound
    · exact h.each other t ((sub.get_setTrack_ne ho _).symm.trans ht)

lemma SubBounded.applyPositions
    (hnamed : sub.mode = .log → ∀ pos ∈ positions, pos.seq + 1 < 2 ^ 64) (h : SubBounded sub) :
    SubBounded (applyPositions positions sub).1 := by
  induction positions generalizing sub with
  | nil => exact h
  | cons pos rest ih =>
    have hfirst : SubBounded (applyPosition sub pos).1 ∧
        (applyPosition sub pos).1.mode = sub.mode := by
      rcases applyPosition_cases sub pos with hr | ⟨held, -, ht, hr⟩
      · rw [hr]
        exact ⟨h, rfl⟩
      rw [hr]
      refine ⟨h.setTrack ht fun hb => ?_, rfl⟩
      have hon := hb.onStream pos.stream
      cases hmode : sub.mode with
      | latest => exact hon
      | log => exact hon.raise (hnamed hmode pos (.head _))
    exact ih (fun hmode p hp => hnamed (hfirst.2 ▸ hmode) p (.tail _ hp)) hfirst.1

lemma takeUpdate_bounded (h : track.Bounded) (hseq : mode = .log → payload.seq + 1 < 2 ^ 64) :
    (takeUpdate mode track payload).1.Bounded := by
  have hon := h.onStream payload.stream
  cases mode with
  | latest =>
    cases hk : payload.key with
    | none => simpa only [takeUpdate, hk] using hon
    | some key =>
      rw [takeUpdate_latest hk]
      exact hon.takeLatest
  | log =>
    unfold takeUpdate
    split_ifs
    · exact hon.takeCheckpoint (hseq rfl)
    · exact hon.takeLog (hseq rfl)

lemma SubBounded.receive (h : SubBounded sub)
    (hseq : sub.mode = .log → payload.seq + 1 < 2 ^ 64) {subId topic sender} :
    SubBounded (receive subId sub topic payload sender).1 := by
  rcases receive_cases subId sub topic payload sender with hr | ⟨held, ht, ⟨-, hr⟩ | ⟨-, hr⟩⟩
  · rw [hr]
    exact h
  · rw [hr]
    exact h.setTrack ht id
  rw [hr]
  exact h.setTrack ht fun hb => takeUpdate_bounded hb hseq

lemma SubBounded.not_atTop (h : SubBounded sub) : ¬AtTop sub := by
  rintro ⟨topic, track, ht, htop⟩
  have hat := (h.each topic track ht).position
  omega

lemma step_subs_length (h : c.Bounded) :
    (step c op).1.subs.entries.length ≤ maxConsumerSubscriptions := by
  by_cases hsub : ∀ id ∈ (step c op).1.subs, id ∈ c.subs
  · exact (length_le_of_mem hsub).trans h.subs
  obtain ⟨id, hid, hnew⟩ : ∃ id, id ∈ (step c op).1.subs ∧ id ∉ c.subs := by
    push Not at hsub
    exact hsub
  obtain ⟨sub', hg⟩ := exists_get_of_mem hid
  rcases step_sub hg with ⟨_, hold, -⟩ | ⟨order, provider, serviceId, topic, options, now, rfl, -⟩ |
    ⟨_, hold, -⟩
  · exact absurd (mem_of_get hold) hnew
  · show (c.subscribe order id provider serviceId topic options now).1.subs.entries.length ≤ _
    rcases subscribe_cases c order id provider serviceId topic options now with ⟨_, hr⟩ | ⟨hroom, hr⟩
    · rw [hr]
      exact h.subs
    rw [hr]
    exact (length_insert_le _).trans hroom
  · exact absurd (mem_of_get hold) hnew

/-- A modest call keeps every bound and overflows nowhere. -/
lemma step_bounded (h : c.Bounded) (hop : Modest c op) :
    (step c op).1.Bounded ∧ ¬Overflows c op := by
  refine ⟨⟨step_subs_length h, fun subId sub' hg => ?_⟩, fun hover => ?_⟩
  · have hsteady {a b} (hs : Steady a b) (ha : SubBounded a) : SubBounded b :=
      ⟨hs.tracks ▸ ha.tracks, hs.tracks ▸ ha.each⟩
    rcases step_sub hg with ⟨sub, hold, hs⟩ | ⟨_, _, _, _, _, _, -, rfl⟩ | ⟨sub, hold, hmoved⟩
    · exact hsteady hs (h.each subId sub hold)
    · exact ⟨Nat.zero_le _, fun _ _ hg => by cases hg⟩
    have hb := h.each subId sub hold
    rcases hmoved with ⟨-, rfl⟩ | ⟨_, _, _, payload, rfl, hc, rfl, ⟨-, hfrom⟩, hs⟩ |
      ⟨_, sender, payload, topic, rfl, hc, rfl, ⟨hfrom, -⟩, -, rfl⟩
    · constructor
      · exact (length_map _).le.trans hb.tracks
      intro topic track ht
      have hm : get (mapValues sub.tracks fun _ track => track.forget) topic = some track := ht
      rw [get_mapValues] at hm
      obtain ⟨old, hg', rfl⟩ := Option.map_eq_some_iff.1 hm
      exact Track.forget_bounded (hb.each topic old hg').retired
    · exact hsteady hs (hb.applyPositions (hop payload hc sub hold hfrom))
    · exact hb.receive (hop payload hc sub hold hfrom)
  · cases op with
    | handleReply content sender now =>
      obtain ⟨payload, sub, n, hc, hg, hfrom, htop⟩ := hover
      exact ((h.each _ sub hg).applyPositions fun hmode pos hp =>
        hop payload hc sub hg hfrom hmode pos (mem_of_mem_take hp)).not_atTop htop
    | handleUpdate content sender =>
      obtain ⟨payload, sub, topic, hc, hg, hfrom, htop⟩ := hover
      exact ((h.each _ sub hg).receive (hop payload hc sub hg hfrom)).not_atTop htop
    | tick order now =>
      obtain ⟨subId, sub, hg, hdue, htop⟩ := hover
      exact absurd (hop subId sub hg hdue) (by omega)
    | _ => exact hover

/-- Along every run whose frames name no seq at the top, the limits hold and no addition
overflows. -/
theorem bounded_along_run (lease pendingTimeout maxPause : ℕ) (ops : List ConsumerOp)
    (h : AlongSteps step Modest (new lease pendingTimeout maxPause) ops) :
    (runSteps step (new lease pendingTimeout maxPause) ops).1.Bounded ∧
      AlongSteps step (fun c op => ¬Overflows c op) (new lease pendingTimeout maxPause) ops := by
  have hstart : (new lease pendingTimeout maxPause).Bounded := ⟨Nat.zero_le _, fun _ _ hg => by cases hg⟩
  generalize new lease pendingTimeout maxPause = c at h hstart
  induction ops generalizing c with
  | nil => exact ⟨hstart, trivial⟩
  | cons op ops ih =>
    obtain ⟨hnext, hover⟩ := step_bounded hstart h.1
    obtain ⟨hend, hrest⟩ := ih _ h.2 hnext
    exact ⟨hend, hover, hrest⟩

def logSubscribe : ConsumerOp := .subscribe [] "sub" "provider" "svc" "t" ⟨.log, "", []⟩ 0

def logReply (seq : ℕ) : ConsumerOp :=
  .handleReply (encode (.subscribeReply
    { subId := "sub", status := .accepted, reason := none, leaseMs := 600000, stream := "s", seq,
      historyLost := false, topics := [], patternFull := false, notice := false })) "provider" 1

theorem bounded_along_run_baseline :
    AlongSteps step Modest (new 1 1 1) [logSubscribe, .markSent "sub", logReply 7] ∧
      (runSteps step (new 1 1 1) [logSubscribe, .markSent "sub", logReply 7]).1.Bounded := by
  have hmod : AlongSteps step Modest (new 1 1 1) [logSubscribe, .markSent "sub", logReply 7] := by
    refine ⟨trivial, trivial, fun payload hp sub hg _ _ => ?_, trivial⟩
    cases hp
    cases hg
    decide
  exact ⟨hmod, (bounded_along_run 1 1 1 _ hmod).1⟩

/-- A baseline at the largest 64-bit number puts the track there. -/
theorem baseline_overflows :
    Overflows (runSteps step (new 1 1 1) [logSubscribe, .markSent "sub"]).1 (logReply (2 ^ 64 - 1)) :=
  ⟨_, _, 1, rfl, rfl, rfl, "t", _, rfl, by decide +kernel⟩

end Consumer

end OfflineProtocol
