import OfflineProtocol.SubscriptionConsumer

/-! How the calls on a consumer move the tracks of its subscriptions: which
calls leave them alone, and what a reply, an update and a resync do to them. -/
namespace OfflineProtocol
open KeyedTable List

namespace Track
variable (t : Track) (stream : String) (seq : ℕ)

@[simp] lemma forget_retired : t.forget.retired = t.retired := rfl

@[simp] lemma raise_stream : (t.raise seq).stream = t.stream := rfl

@[simp] lemma raise_retired : (t.raise seq).retired = t.retired := rfl

@[simp] lemma raise_keys : (t.raise seq).keys = t.keys := rfl

@[simp] lemma onStream_stream : (t.onStream stream).stream = some stream := by
  unfold onStream
  split_ifs with h
  · exact h
  · rfl

lemma mem_resetStream_retired {t : Track} {stream left}
    (hroom : t.retired.length < maxRetiredPerTopic) (h : left ∈ t.retired ∨ t.stream = some left) :
    left ∈ (t.resetStream stream).retired := by
  unfold resetStream
  cases hs : t.stream with
  | none =>
    rcases h with h | h
    · exact h
    rw [hs] at h
    cases h
  | some previous =>
    have hlen : ¬maxRetiredPerTopic < (t.retired.filter (· ≠ previous) ++ [previous]).length := by
      have hle := length_filter_le (fun x => decide (x ≠ previous)) t.retired
      rw [length_append, length_singleton]
      omega
    simp only [if_neg hlen, forget_retired, mem_append, mem_filter, mem_singleton,
      decide_eq_true_eq]
    rcases h with h | h
    · by_cases hp : left = previous
      · exact .inr hp
      · exact .inl ⟨h, hp⟩
    rw [hs] at h
    exact .inr (Option.some.inj h).symm

lemma length_resetStream_retired :
    (t.resetStream stream).retired.length ≤ t.retired.length + 1 := by
  unfold resetStream
  cases t.stream with
  | none => exact Nat.le_succ _
  | some previous =>
    have hle := length_filter_le (fun x => decide (x ≠ previous)) t.retired
    simp only [forget_retired]
    split_ifs
    · rw [length_tail, length_append, length_singleton]
      omega
    rw [length_append, length_singleton]
    omega

/-- A value taken is newer than the one held, and is held afterwards; one not
taken changes nothing. -/
lemma takeLatest_cases (key seq) :
    (t.takeLatest key seq = ({ t with keys := t.keys.insert key seq }, true) ∧
        ∀ held, get t.keys key = some held → held < seq) ∨ t.takeLatest key seq = (t, false) := by
  unfold takeLatest
  cases hk : get t.keys key with
  | none =>
    split_ifs
    · exact .inr rfl
    · exact .inl ⟨rfl, by simp⟩
  | some held =>
    simp only
    split_ifs with hle
    · exact .inr rfl
    · exact .inl ⟨rfl, fun held' h => by cases h; omega⟩

end Track

namespace ConsumerSub

@[simp] lemma get_setTrack_self (sub : ConsumerSub) {topic track} :
    get (sub.setTrack topic track).tracks topic = some track := get_insert_self

lemma get_setTrack_ne (sub : ConsumerSub) {topic other} (h : other ≠ topic)
    (track) : get (sub.setTrack topic track).tracks other = get sub.tracks other :=
  get_insert_ne h

end ConsumerSub

namespace Consumer

structure Steady (a b : ConsumerSub) : Prop where
  provider : b.provider = a.provider
  serviceId : b.serviceId = a.serviceId
  topic : b.topic = a.topic
  mode : b.mode = a.mode
  filter : b.filter = a.filter
  tracks : b.tracks = a.tracks

variable (c : Consumer) (mode : SubscriptionMode) (subId : String) (sub : ConsumerSub)
  (track : Track) (payload : SubscribeReplyPayload) (pos : Position) (now : ℕ)

lemma Steady.refl (a) : Steady a a := ⟨rfl, rfl, rfl, rfl, rfl, rfl⟩

lemma steady_renew : Steady sub (renew subId sub now).1 := ⟨rfl, rfl, rfl, rfl, rfl, rfl⟩

lemma steady_resend : Steady sub (c.resend subId sub now).1 := by
  unfold resend
  cases sub.resendAt with
  | none => exact ⟨rfl, rfl, rfl, rfl, rfl, rfl⟩
  | some dueAt =>
    simp only
    split_ifs <;> exact ⟨rfl, rfl, rfl, rfl, rfl, rfl⟩

lemma steady_tickSub : Steady sub (c.tickSub subId sub now).1 := by
  unfold tickSub
  split
  · split_ifs
    · exact steady_resend c subId sub now
    · exact .refl sub
  · exact .refl sub
  split_ifs
  · exact steady_renew subId sub now
  · exact .refl sub

section
variable {id subId : String} (order : List String) {sub : ConsumerSub}

lemma steady_tick {c : Consumer} {now subId}
    (h : get (c.tick order now).1.subs subId = some sub) :
    ∃ old, get c.subs subId = some old ∧ Steady old sub := by
  unfold tick at h
  rw [get_mapValues, get_retain, Option.map_eq_some_iff] at h
  obtain ⟨old, hold, rfl⟩ := h
  exact ⟨old, (Option.filter_eq_some_iff.1 hold).1, steady_tickSub c subId old now⟩

lemma steady_onPeerSeen {c : Consumer} {peer subId}
    (h : get (c.onPeerSeen order peer).1.subs subId = some sub) :
    ∃ old, get c.subs subId = some old ∧ Steady old sub := by
  unfold onPeerSeen at h
  rw [get_mapValues, Option.map_eq_some_iff] at h
  obtain ⟨old, hold, rfl⟩ := h
  refine ⟨old, hold, ?_⟩
  split_ifs <;> exact ⟨rfl, rfl, rfl, rfl, rfl, rfl⟩

lemma steady_markSent {c : Consumer} (h : get (c.markSent id).subs subId = some sub) :
    ∃ old, get c.subs subId = some old ∧ Steady old sub := by
  unfold markSent at h
  rw [get_modify] at h
  split_ifs at h with hid
  · obtain ⟨old, hold, rfl⟩ := Option.map_eq_some_iff.1 h
    exact ⟨old, hid ▸ hold, ⟨rfl, rfl, rfl, rfl, rfl, rfl⟩⟩
  · exact ⟨sub, h, .refl sub⟩

lemma subscribe_cases (subId provider serviceId topic options now) :
    (∃ e, c.subscribe order subId provider serviceId topic options now = (c, .error e)) ∨
      c.subs.entries.length < maxConsumerSubscriptions ∧
      c.subscribe order subId provider serviceId topic options now =
        (c.put subId (c.opening provider serviceId topic options now),
          .ok (subscribeFrame subId (c.opening provider serviceId topic options now) none)) := by
  unfold subscribe
  split
  · exact .inl ⟨_, rfl⟩
  · exact .inl ⟨_, rfl⟩
  by_cases hsize : maxSubscriptionParamsSize < options.params.utf8ByteSize
  · exact .inl ⟨_, if_pos hsize⟩
  rw [if_neg hsize]
  cases c.already order provider serviceId topic with
  | some existing => exact .inl ⟨_, rfl⟩
  | none =>
    by_cases hfull : maxConsumerSubscriptions ≤ c.subs.entries.length
    · exact .inl ⟨_, if_pos hfull⟩
    · exact .inr ⟨not_le.1 hfull, if_neg hfull⟩

lemma unsubscribe_get {c : Consumer}
    (h : get (c.unsubscribe id).1.subs subId = some sub) : get c.subs subId = some sub := by
  unfold unsubscribe at h
  split at h
  · exact h
  exact (of_get_erase h).2

lemma handleUnsubscribe_get {c : Consumer} {content sender subId}
    (h : get (c.handleUnsubscribe content sender).1.subs subId = some sub) :
    get c.subs subId = some sub := by
  unfold handleUnsubscribe at h
  cases hc : content.unsubscribe? with
  | none =>
    simp only [hc] at h
    exact h
  | some payload =>
    simp only [hc] at h
    cases hg : get c.subs payload.subId with
    | none =>
      simp only [hg] at h
      exact h
    | some held =>
      simp only [hg] at h
      by_cases hfrom : held.provider = sender
      · rw [if_pos hfrom] at h
        exact (of_get_erase h).2
      · rw [if_neg hfrom] at h
        exact h

end

lemma resync_cases : c.resync subId = (c, .error (.unknownSubscription subId)) ∨
      ∃ sub, get c.subs subId = some sub ∧ sub.sent ∧ sub.state ≠ .ended ∧ c.resync subId =
        (c.put subId (resyncing sub),
          .ok (subscribeFrame subId (resyncing sub) (resyncing sub).resyncResume)) := by
  unfold resync
  cases hg : get c.subs subId with
  | none => exact .inl rfl
  | some sub =>
    by_cases hsent : sub.sent ∧ sub.state ≠ .ended
    · exact .inr ⟨sub, rfl, hsent.1, hsent.2, if_pos hsent⟩
    · exact .inl (if_neg hsent)

lemma handleUpdate_cases (content sender) : c.handleUpdate content sender = (c, ∅) ∨
      ∃ payload sub topic, content.update? = some payload ∧
        get c.subs payload.subId = some sub ∧ sub.provider = sender ∧ sub.state ≠ .ended ∧
        updateTopic sub payload = some topic ∧ keyPasses sub payload ∧
        c.handleUpdate content sender =
          (c.put payload.subId (receive payload.subId sub topic payload sender).1,
            ⟨[], (receive payload.subId sub topic payload sender).2⟩) := by
  unfold handleUpdate
  cases hc : content.update? with
  | none => exact .inl rfl
  | some payload =>
    cases hg : get c.subs payload.subId with
    | none => exact .inl (by simp only [hg])
    | some sub =>
      simp only [hg]
      by_cases hfrom : sub.provider = sender ∧ sub.state ≠ .ended
      · rw [if_pos hfrom]
        cases ht : updateTopic sub payload with
        | none => exact .inl rfl
        | some topic =>
          by_cases hkey : keyPasses sub payload
          · exact .inr ⟨payload, sub, topic, rfl, hg, hfrom.1, hfrom.2, ht, hkey,
              by simp only [if_pos hkey]⟩
          · exact .inl (by simp only [if_neg hkey])
      · exact .inl (by rw [if_neg hfrom])

lemma takeUpdate_latest {track payload key} (hk : payload.key = some key) :
    takeUpdate .latest track payload =
      (((track.onStream payload.stream).takeLatest key payload.seq).1,
        some (((track.onStream payload.stream).takeLatest key payload.seq).2, false)) := by
  simp only [takeUpdate, hk]

/-- An update finds no track, or one that has left its stream, or is taken into
the track. -/
lemma receive_cases (topic payload sender) : receive subId sub topic payload sender = (sub, []) ∨
      ∃ track, sub.track topic = some track ∧ ((payload.stream ∈ track.retired ∧
            receive subId sub topic payload sender = (sub.setTrack topic track, [])) ∨
          (payload.stream ∉ track.retired ∧ (receive subId sub topic payload sender).1 =
            sub.setTrack topic (takeUpdate sub.mode track payload).1)) := by
  unfold receive
  cases ht : sub.track topic with
  | none => exact .inl rfl
  | some track =>
    simp only
    by_cases hret : track.isRetired payload.stream
    · exact .inr ⟨track, rfl, .inl ⟨by simpa [Track.isRetired] using hret, by rw [if_pos hret]⟩⟩
    · exact .inr ⟨track, rfl, .inr ⟨by simpa [Track.isRetired] using hret, by rw [if_neg hret]⟩⟩

lemma receive_tracks {subId} {sub : ConsumerSub} {payload} :
    let sub' := (receive subId sub topic payload sender).1
    sub' = { sub with tracks := sub'.tracks } ∧
      ∀ other, other ≠ topic → get sub'.tracks other = get sub.tracks other := by
  rcases receive_cases subId sub topic payload sender with h | ⟨track, -, ⟨-, h⟩ | ⟨-, h⟩⟩
  · rw [h]
    exact ⟨rfl, fun _ _ => rfl⟩
  · rw [h]
    exact ⟨rfl, fun other hne => sub.get_setTrack_ne hne _⟩
  rw [h]
  exact ⟨rfl, fun other hne => sub.get_setTrack_ne hne _⟩

lemma handleReply_cases (content sender now) : c.handleReply content sender now = (c, ∅) ∨
      ∃ payload sub, content.subscribeReply? = some payload ∧
        get c.subs payload.subId = some sub ∧ sub.provider = sender ∧
        ((payload.status ≠ .accepted ∧ ∃ reason, c.handleReply content sender now =
            ({ c with subs := c.subs.erase payload.subId },
              ⟨[], [consumerChanged payload.subId sub .ended reason]⟩)) ∨
          (payload.status = .accepted ∧ c.handleReply content sender now =
            (c.put payload.subId (accepted payload.subId sub payload now).1,
              ⟨[], (accepted payload.subId sub payload now).2⟩))) := by
  unfold handleReply
  cases hc : content.subscribeReply? with
  | none => exact .inl rfl
  | some payload =>
    cases hg : get c.subs payload.subId with
    | none => exact .inl (by simp only [hg])
    | some sub =>
      simp only [hg]
      by_cases hfrom : sub.provider = sender
      · rw [if_pos hfrom]
        by_cases hacc : payload.status = .accepted
        · exact .inr ⟨payload, sub, rfl, hg, hfrom, .inr ⟨hacc, by rw [if_pos hacc]⟩⟩
        · exact .inr ⟨payload, sub, rfl, hg, hfrom, .inl ⟨hacc, _, by rw [if_neg hacc]⟩⟩
      · exact .inl (by rw [if_neg hfrom])

def livePositions : List Position :=
  (replyPositions sub payload).filter fun pos => !staleAt sub pos

lemma steady_reportFull : Steady sub (reportFull subId sub payload).1 := by
  unfold reportFull
  split_ifs <;> exact ⟨rfl, rfl, rfl, rfl, rfl, rfl⟩

lemma Steady.trans (h : Steady a b) (h' : Steady b d) : Steady a d :=
  ⟨h'.1.trans h.1, h'.2.trans h.2, h'.3.trans h.3, h'.4.trans h.4, h'.5.trans h.5, h'.6.trans h.6⟩

lemma accepted_cases : accepted subId sub payload now = (sub, []) ∨
      Steady (applyPositions (livePositions sub payload) sub).1
        (accepted subId sub payload now).1 := by
  unfold accepted
  simp only
  split_ifs
  · exact .inl rfl
  · exact .inr (steady_reportFull _ _ _)
  right
  apply Steady.trans _ (steady_reportFull _ _ _)
  exact ⟨rfl, rfl, rfl, rfl, rfl, rfl⟩

lemma applyPosition_cases : (applyPosition sub pos).1 = sub ∨
      ∃ track, pos.stream ≠ "" ∧ sub.track pos.topic = some track ∧
        (applyPosition sub pos).1 = sub.setTrack pos.topic (positioned sub.mode track pos) := by
  unfold applyPosition
  split_ifs with hs
  · exact .inl rfl
  cases ht : sub.track pos.topic with
  | none => exact .inl rfl
  | some track => exact .inr ⟨track, hs, rfl, rfl⟩

lemma applyPositions_terms (positions sub) : (applyPositions positions sub).1 =
      { sub with tracks := (applyPositions positions sub).1.tracks } := by
  induction positions generalizing sub with
  | nil => rfl
  | cons pos positions ih =>
    unfold applyPositions
    rw [ih]
    rcases applyPosition_cases sub pos with h | ⟨track, -, -, h⟩
    · rw [h]
    rw [h]
    rfl

lemma track_cases {sub : ConsumerSub} {topic track} (h : sub.track topic = some track) :
    get sub.tracks topic = some track ∨ (get sub.tracks topic = none ∧ track = .new) := by
  unfold ConsumerSub.track at h
  cases hg : get sub.tracks topic with
  | some held =>
    simp only [hg] at h
    split_ifs at h
    exact .inl h
  | none =>
    simp only [hg] at h
    split_ifs at h
    exact .inr ⟨rfl, (Option.some.inj h).symm⟩

@[simp] lemma positioned_stream : (positioned mode track pos).stream = some pos.stream := by
  cases mode <;> simp [positioned]

@[simp] lemma positioned_retired :
    (positioned mode track pos).retired = (track.onStream pos.stream).retired := by
  cases mode <;> simp [positioned]

@[simp] lemma positioned_keys :
    (positioned mode track pos).keys = (track.onStream pos.stream).keys := by
  cases mode <;> simp [positioned]

end Consumer

end OfflineProtocol
