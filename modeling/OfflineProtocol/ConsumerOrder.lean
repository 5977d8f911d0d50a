import OfflineProtocol.EventTrace
import OfflineProtocol.ConsumerTracks

/-! The order in which a consumer surfaces the values of a `latest` topic: what
enforces it is the seq held per key and the memory of streams left, and it holds
in every run that erases neither. -/
namespace OfflineProtocol
open KeyedTable EventTrace List Option

def Track.Past (t : Track) (stream key : String) (seq : ℕ) : Prop :=
  (t.stream = some stream ∧ ∃ held, get t.keys key = some held ∧ seq ≤ held) ∨ stream ∈ t.retired

namespace Track.Past
variable {t : Track} {stream key : String} {seq : ℕ}

section
variable (h : t.Past stream key seq)
include h

lemma onStream {next} (hroom : t.stream ≠ some next → t.retired.length < maxRetiredPerTopic) :
    (t.onStream next).Past stream key seq := by
  unfold Track.onStream
  split_ifs with hs
  · exact h
  right
  apply mem_resetStream_retired (hroom hs)
  rcases h with ⟨hstream, -⟩ | hret
  · exact .inr hstream
  · exact .inl hret

lemma takeLatest {key' seq'} : (t.takeLatest key' seq').1.Past stream key seq := by
  rcases t.takeLatest_cases key' seq' with ⟨he, hnewer⟩ | he
  · rw [he]
    rcases h with ⟨hstream, held, hheld, hle⟩ | hret
    · refine .inl ⟨hstream, ?_⟩
      by_cases hk : key = key'
      · subst hk
        have hlt := hnewer held hheld
        exact ⟨seq', get_insert_self, by omega⟩
      · exact ⟨held, (get_insert_ne hk).trans hheld, hle⟩
    · exact .inr hret
  · rw [he]
    exact h

lemma forget (hempty : t.keys.entries = []) : t.forget.Past stream key seq := by
  rcases h with ⟨-, held, hheld, -⟩ | hret
  · rw [get_eq_some_iff, hempty] at hheld
    cases hheld
  · exact .inr hret

lemma lt_of_fresh (hret : stream ∉ t.retired)
    (hfresh : ((t.onStream stream).takeLatest key seq').2 = true) : seq < seq' := by
  rcases h with ⟨hstream, held, hheld, hle⟩ | hret'
  · rw [Track.onStream, if_pos hstream] at hfresh
    rcases t.takeLatest_cases key seq' with ⟨-, hnewer⟩ | he
    · have hlt := hnewer held hheld
      omega
    rw [he] at hfresh
    cases hfresh
  · exact absurd hret' hret

end

end Track.Past

lemma Track.past_of_fresh {t : Track} {stream key seq}
    (hfresh : ((t.onStream stream).takeLatest key seq).2 = true) :
    ((t.onStream stream).takeLatest key seq).1.Past stream key seq := by
  rcases (t.onStream stream).takeLatest_cases key seq with ⟨he, -⟩ | he
  · rw [he]
    exact .inl ⟨onStream_stream t stream, seq, get_insert_self, le_rfl⟩
  rw [he] at hfresh
  cases hfresh

namespace Consumer
variable (c : Consumer) (subId : String) (sub : ConsumerSub) (op : ConsumerOp)
variable {topic stream key : String} {track : Track} {seq : ℕ}

def streamAt (topic : String) : Option String :=
  (get sub.tracks topic).bind Track.stream

def retiredAt (topic : String) : ℕ :=
  ((get sub.tracks topic).map fun t => t.retired.length).getD 0

/-- Every topic the positions move to another stream has room to remember the
streams they make it leave. -/
def Roomy (positions : List Position) : Prop :=
  ∀ pos ∈ positions, streamAt sub pos.topic ≠ some pos.stream →
    retiredAt sub pos.topic + positions.countP (fun p => p.topic = pos.topic) ≤ maxRetiredPerTopic

instance (sub : ConsumerSub) (positions : List Position) : Decidable (Roomy sub positions) :=
  decidableBAll _ positions

def PastAt (topic stream key : String) (seq : ℕ) : Prop :=
  ∃ track, get sub.tracks topic = some track ∧ track.Past stream key seq

lemma retiredAt_eq {sub}
    (h : sub.track topic = some track) : retiredAt sub topic = track.retired.length := by
  rcases track_cases h with hg | ⟨hg, rfl⟩
  · simp [retiredAt, hg]
  · simp [retiredAt, hg, Track.new]

lemma streamAt_eq {sub}
    (h : sub.track topic = some track) : streamAt sub topic = track.stream := by
  rcases track_cases h with hg | ⟨hg, rfl⟩
  · simp [streamAt, hg]
  · simp [streamAt, hg, Track.new]

lemma applyPosition_roomy {sub} (hroom : Roomy sub (pos :: rest)) :
    Roomy (applyPosition sub pos).1 rest ∧ ∀ topic stream key seq,
      PastAt sub topic stream key seq → PastAt (applyPosition sub pos).1 topic stream key seq := by
  rcases applyPosition_cases sub pos with h | ⟨track, -, htrack, h⟩
  · rw [h]
    refine ⟨fun p hp hne => ?_, fun _ _ _ _ hpast => hpast⟩
    have hle := hroom p (.tail _ hp) hne
    rw [countP_cons] at hle
    omega
  rw [h]
  have hlen := retiredAt_eq htrack
  have hstream := streamAt_eq htrack
  have hhere := hroom pos (.head _)
  simp only [countP_cons, decide_true, if_true] at hhere
  constructor
  · intro p hp hne
    by_cases ht : p.topic = pos.topic
    · -- The same topic again: it has left one stream more at most, and counts one less.
      have hnew : retiredAt (sub.setTrack pos.topic (positioned sub.mode track pos)) p.topic =
          (track.onStream pos.stream).retired.length := by
        simp [retiredAt, ht]
      rw [hnew]
      by_cases hmove : track.stream = some pos.stream
      · have hsame : track.onStream pos.stream = track := if_pos hmove
        have hne' : streamAt sub p.topic ≠ some p.stream := by
          simp only [streamAt, ht, ConsumerSub.get_setTrack_self, bind_some,
            positioned_stream] at hne
          rw [ht, hstream, hmove]
          exact hne
        have hle := hroom p (.tail _ hp) hne'
        rw [ht, hlen, countP_cons] at hle
        rw [hsame, ht]
        omega
      · have hreset : track.onStream pos.stream = track.resetStream pos.stream := if_neg hmove
        have hgrow := track.length_resetStream_retired pos.stream
        have hle := hhere (by rw [hstream]; exact hmove)
        rw [hreset, ht]
        omega
    · have hkeep := sub.get_setTrack_ne ht (positioned sub.mode track pos)
      simp only [streamAt, retiredAt, hkeep] at hne ⊢
      have hle := hroom p (.tail _ hp) hne
      simp only [retiredAt, countP_cons] at hle
      omega
  · rintro topic stream key seq ⟨held, hheld, hpast⟩
    by_cases ht : topic = pos.topic
    · subst ht
      refine ⟨_, sub.get_setTrack_self, ?_⟩
      have heq : track = held := by
        rcases track_cases htrack with hg | ⟨hg, -⟩
        · exact some.inj (hg.symm.trans hheld)
        rw [hg] at hheld
        cases hheld
      subst heq
      have hmoved := hpast.onStream fun hmove => by
        have hle := hhere (by rw [hstream]; exact hmove)
        omega
      simpa only [Track.Past, positioned_stream, positioned_keys, positioned_retired,
        Track.onStream_stream] using hmoved
    · exact ⟨held, (sub.get_setTrack_ne ht _).trans hheld, hpast⟩

lemma applyPositions_roomy {sub}
    (hroom : Roomy sub positions) (hpast : PastAt sub topic stream key seq) :
    PastAt (applyPositions positions sub).1 topic stream key seq := by
  induction positions generalizing sub with
  | nil => exact hpast
  | cons pos rest ih =>
    obtain ⟨hroom', hkeep⟩ := applyPosition_roomy hroom
    exact ih hroom' (hkeep topic stream key seq hpast)

inductive ConsumerOp
  | setTiming (lease pendingTimeout maxPause : ℕ)
  | subscribe (order : List String) (subId provider serviceId topic : String)
      (options : SubscribeOptions) (now : ℕ)
  | markSent (subId : String)
  | unsubscribe (subId : String)
  | resync (subId : String)
  | handleReply (content : Content) (sender : String) (now : ℕ)
  | handleUpdate (content : Content) (sender : String)
  | handleUnsubscribe (content : Content) (sender : String)
  | tick (order : List String) (now : ℕ)
  | onPeerSeen (order : List String) (peer : String)

def frameOutput (result : Except ServiceError SubscriptionFrame) : SubscriptionOutput :=
  match result with
  | .ok frame => ⟨[frame], []⟩
  | .error _ => ∅

def call : ConsumerOp → Consumer × SubscriptionOutput
  | .setTiming lease pendingTimeout maxPause => (c.setTiming lease pendingTimeout maxPause, ∅)
  | .subscribe order subId provider serviceId topic options now =>
    let (c', result) := c.subscribe order subId provider serviceId topic options now
    (c', frameOutput result)
  | .markSent subId => (c.markSent subId, ∅)
  | .unsubscribe subId =>
    let (c', out) := c.unsubscribe subId
    (c', out.getD ∅)
  | .resync subId =>
    let (c', result) := c.resync subId
    (c', frameOutput result)
  | .handleReply content sender now => c.handleReply content sender now
  | .handleUpdate content sender => c.handleUpdate content sender
  | .handleUnsubscribe content sender =>
    let (c', out) := c.handleUnsubscribe content sender
    (c', out.getD ∅)
  | .tick order now => c.tick order now
  | .onPeerSeen order peer => c.onPeerSeen order peer

/-- A value surfaced to the application, with the frame and the subscription it
came by. -/
structure Delivery where
  subId : String
  topic : String
  key : Option String
  seq : ℕ
  peer : String
  stream : Option String
  sender : Option String
  mode : Option SubscriptionMode
  provider : Option String

def ConsumerOp.update? : ConsumerOp → Option (UpdatePayload × String)
  | .handleUpdate content sender => content.update?.map (·, sender)
  | _ => none

def delivery : ServiceEvent → Option Delivery
  | .updateReceived subId _ topic key seq _ _ peer =>
    some { subId, topic, key, seq, peer, stream := op.update?.map fun f => f.1.stream,
           sender := op.update?.map Prod.snd, mode := (get c.subs subId).map ConsumerSub.mode,
           provider := (get c.subs subId).map ConsumerSub.provider }
  | _ => none

def step : Consumer × List Delivery :=
  ((c.call op).1, (c.call op).2.events.filterMap (delivery c op))

def AllChanges (events : List ServiceEvent) : Prop :=
  ∀ e ∈ events, ∃ subId role serviceId topic peer state reason,
    e = changed subId role serviceId topic peer state reason

lemma AllChanges.no_delivery (h : AllChanges events) (c)
    (op) : events.filterMap (delivery c op) = [] := by
  apply filterMap_eq_nil_iff.2
  intro e he
  obtain ⟨_, _, _, _, _, _, _, rfl⟩ := h e he
  rfl

lemma allChanges_nil : AllChanges [] := nofun

lemma allChanges_single :
    AllChanges [changed subId role serviceId topic peer state reason] := by
  intro e he
  exact ⟨_, _, _, _, _, _, _, mem_singleton.1 he⟩

lemma AllChanges.append (ha : AllChanges a) (hb : AllChanges b) : AllChanges (a ++ b) :=
  forall_mem_append.2 ⟨ha, hb⟩

lemma allChanges_topicChanges :
    AllChanges (topicChanges subId sub resets lost) := by
  apply AllChanges.append
  · intro e he
    obtain ⟨topic, -, rfl⟩ := mem_map.1 he
    exact ⟨_, _, _, _, _, _, _, rfl⟩
  intro e he
  obtain ⟨topic, -, rfl⟩ := mem_map.1 he
  exact ⟨_, _, _, _, _, _, _, rfl⟩

lemma allChanges_reportFull {payload} : AllChanges (reportFull subId sub payload).2 := by
  unfold reportFull
  split_ifs
  · exact allChanges_single _
  · exact allChanges_nil

lemma allChanges_answeredEvents : AllChanges (answeredEvents subId sub) := by
  unfold answeredEvents
  split
  · exact allChanges_single _
  · exact allChanges_single _
  · exact allChanges_nil

lemma allChanges_accepted {payload} {now} : AllChanges (accepted subId sub payload now).2 := by
  unfold accepted
  simp only
  split_ifs
  · exact allChanges_nil
  · exact (allChanges_reportFull _ _).append (allChanges_topicChanges _ _)
  exact ((allChanges_answeredEvents _ _).append (allChanges_reportFull _ _)).append
    (allChanges_topicChanges _ _)

lemma allChanges_tickSub {now} : AllChanges (c.tickSub subId sub now).2.events := by
  have hres : AllChanges (c.resend subId sub now).2.events := by
    unfold resend
    split
    · exact allChanges_nil
    · split_ifs <;> exact allChanges_nil
  have hrenew : AllChanges (renew subId sub now).2.events := by
    unfold renew
    cases pauses sub with
    | true => exact allChanges_single _
    | false => exact allChanges_nil
  unfold tickSub
  split
  · split_ifs
    · exact hres
    · exact allChanges_nil
  · exact allChanges_nil
  split_ifs
  · exact hrenew
  · exact allChanges_nil

lemma step_no_delivery
    (h : ∀ content sender, op ≠ .handleUpdate content sender) : (step c op).2 = [] := by
  apply AllChanges.no_delivery
  have hframe (result) : AllChanges (frameOutput result).events := by
    cases result <;> exact allChanges_nil
  cases op with
  | setTiming _ _ _ => exact allChanges_nil
  | subscribe _ _ _ _ _ _ _ => exact hframe _
  | markSent _ => exact allChanges_nil
  | unsubscribe subId =>
    simp only [call, unsubscribe]
    split
    · exact allChanges_nil
    · exact allChanges_single _
  | resync _ => exact hframe _
  | handleReply content sender now =>
    rcases handleReply_cases c content sender now with hr | ⟨_, _, -, -, -, ⟨-, _, hr⟩ | ⟨-, hr⟩⟩
    · simp only [call, hr]
      exact allChanges_nil
    · simp only [call, hr]
      exact allChanges_single _
    simp only [call, hr]
    exact allChanges_accepted _ _
  | handleUpdate content sender => exact absurd rfl (h content sender)
  | handleUnsubscribe content sender =>
    simp only [call, handleUnsubscribe]
    split
    · exact allChanges_nil
    split
    · exact allChanges_nil
    split_ifs
    · exact allChanges_single _
    · exact allChanges_single _
    · exact allChanges_nil
  | tick order now =>
    intro e he
    rcases mem_append.1 he with he | he
    · obtain ⟨o, ho, he⟩ := mem_flatMap.1 he
      obtain ⟨⟨id, sub⟩, -, rfl⟩ := mem_map.1 ho
      exact allChanges_tickSub c id sub e he
    obtain ⟨⟨id, sub, reason⟩, -, rfl⟩ := mem_map.1 he
    exact ⟨_, _, _, _, _, _, _, rfl⟩
  | onPeerSeen _ _ => exact allChanges_nil

lemma step_delivery {c op} (h : d ∈ (step c op).2) :
    ∃ content sender payload sub topic track, op = .handleUpdate content sender ∧
      content.update? = some payload ∧ get c.subs payload.subId = some sub ∧
      sub.provider = sender ∧ sub.track topic = some track ∧ payload.stream ∉ track.retired ∧
      (∃ gap, (takeUpdate sub.mode track payload).2 = some (true, gap)) ∧
      get (step c op).1.subs payload.subId =
        some (sub.setTrack topic (takeUpdate sub.mode track payload).1) ∧
      (step c op).2 = [d] ∧
      d = ⟨payload.subId, topic, payload.key, payload.seq, sender, some payload.stream, some sender,
        some sub.mode, some sender⟩ := by
  by_cases hop : ∃ content sender, op = .handleUpdate content sender
  · obtain ⟨content, sender, rfl⟩ := hop
    rcases handleUpdate_cases c content sender with
      hr | ⟨payload, sub, topic, hc, hg, hfrom, -, -, -, hr⟩
    · simp only [step, call, hr] at h
      cases h
    have hevent : (step c (.handleUpdate content sender)).2 =
        (receive payload.subId sub topic payload sender).2.filterMap
          (delivery c (.handleUpdate content sender)) := by
      simp only [step, call, hr]
    have hstate : (step c (.handleUpdate content sender)).1 =
        c.put payload.subId (receive payload.subId sub topic payload sender).1 := by
      simp only [step, call, hr]
    rw [hevent] at h ⊢
    rw [hstate]
    unfold receive at h ⊢
    cases ht : sub.track topic with
    | none =>
      simp only [ht] at h
      cases h
    | some track =>
      simp only [ht] at h ⊢
      by_cases hret : track.isRetired payload.stream
      · simp only [if_pos hret] at h
        cases h
      simp only [if_neg hret] at h ⊢
      cases htaken : (takeUpdate sub.mode track payload).2 with
      | none =>
        simp only [htaken] at h
        cases h
      | some taken =>
        obtain ⟨fresh, gap⟩ := taken
        -- The changes before the update deliver nothing, so the update is all there is.
        have hbefore (b : Bool) (reason) :
            (if b then [changed payload.subId .consumer sub.serviceId topic sub.provider
              sub.state reason] else []).filterMap
                (delivery c (.handleUpdate content sender)) = [] := by
          cases b <;> rfl
        simp only [htaken, filterMap_append, hbefore, nil_append] at h ⊢
        cases fresh with
        | false => cases h
        | true =>
          have hd := mem_singleton.1 h
          refine ⟨content, sender, payload, sub, topic, track, rfl, hc, hg, hfrom, ht,
            by simpa [Track.isRetired] using hret, ⟨gap, htaken⟩, get_insert_self,
            by rw [hd]; rfl, ?_⟩
          rw [hd]
          simp only [ConsumerOp.update?, hc, hg, map_some, hfrom]
  · have hnone := step_no_delivery c op fun content sender he => hop ⟨content, sender, he⟩
    rw [hnone] at h
    cases h

/-- Two deliveries of one key of one stream of a `latest` topic come in the order
of their seqs. -/
def InOrder (d₁ d₂ : Delivery) : Prop :=
  d₁.subId = subId → d₂.subId = subId → d₂.mode = some .latest → d₁.topic = d₂.topic →
    d₁.stream = d₂.stream → d₁.key = d₂.key → d₁.seq ≤ d₂.seq

instance (subId : String) (d₁ d₂ : Delivery) : Decidable (InOrder subId d₁ d₂) := by
  dsimp only [InOrder]
  infer_instance

/-- What a call must not do to subscription `subId` for its order to hold: mint
its id again, forget the values it holds, or, in a frame that is not refused, move
one of its topics off so many streams that one left is forgotten. -/
def KeepsOrder (c : Consumer) : ConsumerOp → Prop
  | .subscribe _ id _ _ _ _ _ => id ≠ subId
  | .resync id => id = subId → ∀ sub ∈ get c.subs subId, sub.mode = .latest →
    ∀ e ∈ sub.tracks.entries, e.2.keys.entries = []
  | .handleReply content sender _ => ∀ payload ∈ content.subscribeReply?, payload.subId = subId →
    payload.status = .accepted → ∀ sub ∈ get c.subs subId, sub.provider = sender →
      Roomy sub ((livePositions sub payload).filter fun p => p.stream ≠ "")
  | .handleUpdate content sender => ∀ payload ∈ content.update?, payload.subId = subId →
    ∀ sub ∈ get c.subs subId, sub.provider = sender → sub.state ≠ .ended → keyPasses sub payload →
      ∀ topic ∈ updateTopic sub payload, ∀ track ∈ sub.track topic,
        payload.stream ∉ track.retired → Roomy sub [⟨topic, payload.stream, 0, false⟩]
  | _ => True

instance (subId : String) (c : Consumer) (op : ConsumerOp) : Decidable (KeepsOrder subId c op) := by
  cases op <;> dsimp only [KeepsOrder] <;> infer_instance

lemma Steady.pastAt (h : Steady a b)
    (hp : PastAt a topic stream key seq) : PastAt b topic stream key seq := by
  unfold PastAt
  rw [h.tracks]
  exact hp

lemma applyPositions_published (positions sub) : (applyPositions positions sub).1 =
      (applyPositions (positions.filter fun p => p.stream ≠ "") sub).1 := by
  induction positions generalizing sub with
  | nil => rfl
  | cons pos rest ih =>
    by_cases hs : pos.stream = ""
    · have hskip : (applyPosition sub pos).1 = sub := by
        simp only [applyPosition, if_pos hs]
      rw [filter_cons_of_neg (by simp [hs])]
      simp only [applyPositions, hskip]
      exact ih sub
    · rw [filter_cons_of_pos (by simp [hs])]
      exact ih _

lemma receive_pastAt {subId sub} (hmode : sub.mode = .latest)
    (hroom : ∀ track ∈ sub.track topic, payload.stream ∉ track.retired →
      Roomy sub [⟨topic, payload.stream, 0, false⟩])
    (hpast : PastAt sub name stream key seq) :
    PastAt (receive subId sub topic payload sender).1 name stream key seq := by
  obtain ⟨held, hheld, hp⟩ := hpast
  by_cases hname : name = topic
  · subst hname
    rcases receive_cases subId sub name payload sender with hr | ⟨track, ht, hr⟩
    · rw [hr]
      exact ⟨held, hheld, hp⟩
    have heq : track = held := by
      rcases track_cases ht with hg | ⟨hg, -⟩
      · exact some.inj (hg.symm.trans hheld)
      rw [hg] at hheld
      cases hheld
    subst heq
    rcases hr with ⟨-, hr⟩ | ⟨hlive, hr⟩
    · rw [hr]
      exact ⟨track, sub.get_setTrack_self, hp⟩
    rw [hr]
    refine ⟨_, sub.get_setTrack_self, ?_⟩
    have hon := hp.onStream fun hmove => by
      have hle := hroom track ht hlive _ (.head _) (by rw [streamAt_eq ht]; exact hmove)
      rw [retiredAt_eq ht] at hle
      simp only [countP_cons, countP_nil, decide_true, if_true] at hle
      omega
    rw [hmode]
    cases hk : payload.key with
    | none => simpa only [takeUpdate, hk] using hon
    | some key' =>
      rw [takeUpdate_latest hk]
      exact hon.takeLatest
  · exact ⟨held, (receive_tracks.2 name hname).trans hheld, hp⟩

/-- What a subscription is after a call: as it was but for its terms of renewal, newly
opened, resynced, moved by an accepted reply or by an update. -/
lemma step_sub {c op subId} (hg : get (step c op).1.subs subId = some sub') :
    (∃ sub, get c.subs subId = some sub ∧ Steady sub sub') ∨
    (∃ order provider serviceId topic options now,
      op = .subscribe order subId provider serviceId topic options now ∧
        sub' = c.opening provider serviceId topic options now) ∨
    ∃ sub, get c.subs subId = some sub ∧ ((op = .resync subId ∧ sub' = resyncing sub) ∨
        (∃ content sender now payload, op = .handleReply content sender now ∧
          content.subscribeReply? = some payload ∧ payload.subId = subId ∧
          (payload.status = .accepted ∧ sub.provider = sender) ∧
            Steady (applyPositions (livePositions sub payload) sub).1 sub') ∨
        ∃ content sender payload topic, op = .handleUpdate content sender ∧
          content.update? = some payload ∧ payload.subId = subId ∧
          (sub.provider = sender ∧ sub.state ≠ .ended ∧ keyPasses sub payload) ∧
          updateTopic sub payload = some topic ∧
          sub' = (receive subId sub topic payload sender).1) := by
  have hsame {old} (hs : get c.subs subId = some old) (he : old = sub') :
      ∃ sub, get c.subs subId = some sub ∧ Steady sub sub' := ⟨old, hs, he ▸ .refl old⟩
  cases op with
  | setTiming _ _ _ => exact .inl (hsame hg rfl)
  | subscribe order id provider serviceId topic options now =>
    have hg' : get (c.subscribe order id provider serviceId topic options now).1.subs subId =
      some sub' := hg
    rcases subscribe_cases c order id provider serviceId topic options now with ⟨e, hr⟩ | ⟨-, hr⟩
    · rw [hr] at hg'
      exact .inl (hsame hg' rfl)
    rw [hr] at hg'
    rcases of_get_insert hg' with ⟨rfl, rfl⟩ | ⟨-, hold⟩
    · exact .inr (.inl ⟨order, provider, serviceId, topic, options, now, rfl, rfl⟩)
    · exact .inl (hsame hold rfl)
  | markSent id => exact .inl (steady_markSent hg)
  | unsubscribe id => exact .inl (hsame (unsubscribe_get hg) rfl)
  | resync id =>
    have hg' : get (c.resync id).1.subs subId = some sub' := hg
    rcases resync_cases c id with hr | ⟨sub, hold, -, -, hr⟩
    · rw [hr] at hg'
      exact .inl (hsame hg' rfl)
    rw [hr] at hg'
    rcases of_get_insert hg' with ⟨rfl, rfl⟩ | ⟨-, hs⟩
    · exact .inr (.inr ⟨sub, hold, .inl ⟨rfl, rfl⟩⟩)
    · exact .inl (hsame hs rfl)
  | handleReply content sender now =>
    have hg' : get (c.handleReply content sender now).1.subs subId = some sub' := hg
    rcases handleReply_cases c content sender now with
      hr | ⟨payload, sub, hc, hold, hfrom, ⟨-, _, hr⟩ | ⟨hstatus, hr⟩⟩
    · rw [hr] at hg'
      exact .inl (hsame hg' rfl)
    · rw [hr] at hg'
      exact .inl (hsame (of_get_erase hg').2 rfl)
    rw [hr] at hg'
    rcases of_get_insert hg' with ⟨rfl, rfl⟩ | ⟨-, hs⟩
    · rcases accepted_cases payload.subId sub payload now with ha | ha
      · exact .inl (hsame hold (by rw [ha]))
      · exact .inr (.inr ⟨sub, hold, .inr (.inl ⟨_, _, _, payload, rfl, hc, rfl, ⟨hstatus, hfrom⟩, ha⟩)⟩)
    · exact .inl (hsame hs rfl)
  | handleUpdate content sender =>
    have hg' : get (c.handleUpdate content sender).1.subs subId = some sub' := hg
    rcases handleUpdate_cases c content sender with
      hr | ⟨payload, sub, topic, hc, hold, hfrom, hlive, htopic, hkey, hr⟩
    · rw [hr] at hg'
      exact .inl (hsame hg' rfl)
    rw [hr] at hg'
    rcases of_get_insert hg' with ⟨rfl, rfl⟩ | ⟨-, hs⟩
    · exact .inr (.inr ⟨sub, hold, .inr (.inr
        ⟨_, _, _, topic, rfl, hc, rfl, ⟨hfrom, hlive, hkey⟩, htopic, rfl⟩)⟩)
    · exact .inl (hsame hs rfl)
  | handleUnsubscribe content sender => exact .inl (hsame (handleUnsubscribe_get hg) rfl)
  | tick order now => exact .inl (steady_tick order hg)
  | onPeerSeen order peer => exact .inl (steady_onPeerSeen order hg)

/-- A call that keeps the order leaves a subscription past everything it was
past. -/
lemma step_keeps {c op subId} (h : KeepsOrder subId c op)
    (hg : get (step c op).1.subs subId = some sub') :
    ∃ sub, get c.subs subId = some sub ∧ sub'.mode = sub.mode ∧
      (sub.mode = .latest → ∀ topic stream key seq, PastAt sub topic stream key seq →
        PastAt sub' topic stream key seq) := by
  rcases step_sub hg with ⟨sub, hold, hst⟩ | ⟨_, _, _, _, _, _, rfl, -⟩ | ⟨sub, hold, hmoved⟩
  · exact ⟨sub, hold, hst.mode, fun _ _ _ _ _ hp => hst.pastAt hp⟩
  · exact absurd rfl h
  rcases hmoved with ⟨rfl, rfl⟩ | ⟨_, _, _, payload, rfl, hc, hid, ⟨hstatus, hfrom⟩, hst⟩ |
    ⟨_, _, payload, topic, rfl, hc, hid, ⟨hfrom, hlive, hkey⟩, htopic, rfl⟩
  · refine ⟨sub, hold, rfl, fun hmode topic stream key seq hpast => ?_⟩
    -- It held no value to forget.
    obtain ⟨track, htrack, hp⟩ := hpast
    have hempty := h rfl sub hold hmode _ (get_eq_some_iff.1 htrack)
    refine ⟨track.forget, ?_, hp.forget hempty⟩
    show get (mapValues sub.tracks fun _ track => track.forget) topic = _
    rw [get_mapValues, htrack]
    rfl
  · refine ⟨sub, hold, by rw [hst.mode, applyPositions_terms], fun _ _ _ _ _ hpast => hst.pastAt ?_⟩
    rw [applyPositions_published]
    exact applyPositions_roomy (h payload hc hid hstatus sub hold hfrom) hpast
  · refine ⟨sub, hold, ?_, fun hmode _ _ _ _ hpast => ?_⟩
    · rw [receive_tracks.1]
    · exact receive_pastAt hmode (h payload hc hid sub hold hfrom hlive hkey topic htopic) hpast

/-- A delivery's event names the provider of the subscription, and the frame it
came by was sent by that provider. -/
def FromProvider (d : Delivery) : Prop :=
  ∃ sender, d.sender = some sender ∧ d.provider = some sender ∧ d.peer = sender

/-- The deliveries so far are in order, and the subscription is past every value
it has surfaced. -/
structure Ordered (subId : String) (c : Consumer) (past : List Delivery) : Prop where
  inOrder : past.Pairwise (InOrder subId)
  isPast : ∀ d ∈ past, d.subId = subId → ∀ sub, get c.subs subId = some sub → sub.mode = .latest →
    ∀ stream key, d.stream = some stream → d.key = some key → PastAt sub d.topic stream key d.seq

lemma fromProvider_step {c op} (h : d ∈ (step c op).2) : FromProvider d := by
  obtain ⟨_, sender, _, _, _, _, -, -, -, -, -, -, -, -, -, rfl⟩ := step_delivery h
  exact ⟨sender, rfl, rfl, rfl⟩

lemma takeUpdate_fresh_key (h : (takeUpdate .latest track payload).2 = some (true, gap)) :
    ∃ key, payload.key = some key ∧
      ((track.onStream payload.stream).takeLatest key payload.seq).2 = true := by
  cases hk : payload.key with
  | none =>
    simp only [takeUpdate, hk] at h
    cases h
  | some key =>
    rw [takeUpdate_latest hk] at h
    simp only [some.injEq, Prod.mk.injEq] at h
    exact ⟨key, rfl, h.1⟩

lemma ordered_step {subId c op} (h : Ordered subId c past) (hop : KeepsOrder subId c op) :
    Ordered subId (step c op).1 (past ++ (step c op).2) := by
  have hkept : ∀ d ∈ past, d.subId = subId → ∀ sub, get (step c op).1.subs subId = some sub →
      sub.mode = .latest → ∀ stream key, d.stream = some stream → d.key = some key →
      PastAt sub d.topic stream key d.seq := by
    intro d hd hid sub hsub hmode stream key hstream hkey
    obtain ⟨old, hold, hsame, hkeep⟩ := step_keeps hop hsub
    rw [hsame] at hmode
    exact hkeep hmode _ _ _ _ (h.isPast d hd hid old hold hmode stream key hstream hkey)
  cases hout : (step c op).2 with
  | nil =>
    rw [append_nil]
    exact ⟨h.inOrder, hkept⟩
  | cons d rest =>
    have hmem : d ∈ (step c op).2 := by
      rw [hout]
      exact .head _
    obtain ⟨content, sender, payload, sub, topic, track, rfl, hc, hsub, hfrom, ht, hret,
      ⟨gap, htaken⟩, hafter, hone, hd⟩ := step_delivery hmem
    rw [← hout, hone]
    constructor
    · -- The new delivery against the earlier ones: the subscription was past each of them.
      refine pairwise_append.2 ⟨h.inOrder, pairwise_singleton _ _, ?_⟩
      intro e he d' hd' hid hid' hmode htopic hstream hkey
      cases mem_singleton.1 hd'
      subst hd
      simp only [some.injEq] at hmode htopic hstream hkey hid'
      subst hid'
      rw [hmode] at htaken
      obtain ⟨key, hk, hfresh⟩ := takeUpdate_fresh_key htaken
      obtain ⟨held, hheld, hpast⟩ :=
        h.isPast e he hid sub hsub hmode payload.stream key hstream (hkey.trans hk)
      have heq : track = held := by
        rw [htopic] at hheld
        rcases track_cases ht with hg | ⟨hg, -⟩
        · exact some.inj (hg.symm.trans hheld)
        rw [hg] at hheld
        cases hheld
      subst heq
      exact le_of_lt (hpast.lt_of_fresh hret hfresh)
    · intro e he hid sub' hsub' hmode stream key hstream hkey
      rcases mem_append.1 he with he | he
      · exact hkept e he hid sub' hsub' hmode stream key hstream hkey
      cases mem_singleton.1 he
      subst hd
      simp only [some.injEq] at hid hstream hkey
      subst hid hstream
      rw [hafter] at hsub'
      cases hsub'
      have hm : sub.mode = .latest := hmode
      refine ⟨_, sub.get_setTrack_self, ?_⟩
      rw [hm] at htaken ⊢
      obtain ⟨key', hk, hfresh⟩ := takeUpdate_fresh_key htaken
      cases hk.symm.trans hkey
      rw [takeUpdate_latest hk]
      exact Track.past_of_fresh hfresh

/-- In every run, from any state, each delivery came from the provider of its
subscription; and the deliveries of one subscription surface no older value after
a newer one, over a run whose calls keep its order. -/
theorem updates_in_order (ops : List ConsumerOp) :
    (∀ d ∈ (runSteps step c ops).2, FromProvider d) ∧
      (AlongSteps step (KeepsOrder subId) c ops →
        (runSteps step c ops).2.Pairwise (InOrder subId)) := by
  constructor
  · induction ops generalizing c with
    | nil => exact nofun
    | cons op ops ih =>
      intro d hd
      rcases mem_append.1 hd with hd | hd
      · exact fromProvider_step hd
      · exact ih _ d hd
  · intro hkeeps
    have hstart : Ordered subId c [] := ⟨.nil, nofun⟩
    have hend := runSteps_invariant (I := Ordered subId)
      (fun w op past hw hop => ordered_step hw hop) hkeeps hstart
    simpa using hend.inOrder

def exampleSubscribe : ConsumerOp :=
  .subscribe [] "sub" "provider" "svc" "t" ⟨.latest, "", []⟩ 0

def exampleReply (stream : String) : ConsumerOp :=
  .handleReply (encode (.subscribeReply
    { subId := "sub", status := .accepted, reason := none, leaseMs := 600000, stream, seq := 0,
      historyLost := false, topics := [], patternFull := false, notice := false })) "provider" 1

def exampleUpdate (stream : String) (seq : ℕ) : ConsumerOp :=
  .handleUpdate (encode (.update
    { subId := "sub", topic := none, stream, seq, key := some "k", body := "v",
      snapshot := false })) "provider"

theorem updates_in_order_late_value :
    let c := (step (.new 1 1 1) exampleSubscribe).1
    let ops := [.markSent "sub", exampleReply "s", exampleUpdate "s" 5, exampleUpdate "s" 3,
      exampleUpdate "s" 7, exampleReply "s1", exampleReply "s2", exampleReply "s3",
      exampleReply "s4", exampleUpdate "s" 6]
    AlongSteps step (KeepsOrder "sub") c ops ∧
      ((runSteps step c ops).2.map fun d => (d.key, d.seq)) = [(some "k", 5), (some "k", 7)] ∧
      (∀ d ∈ (runSteps step c ops).2, FromProvider d) ∧
      (runSteps step c ops).2.Pairwise (InOrder "sub") := by
  intro c ops
  have hkeeps : AlongSteps step (KeepsOrder "sub") c ops := by decide +kernel
  exact ⟨hkeeps, by decide +kernel, (updates_in_order c "sub" ops).1,
    (updates_in_order c "sub" ops).2 hkeeps⟩

/-- What erases the position lets an older value through: a resync between value
5 and the late value 3 of the same key, or five moves to other streams. -/
theorem resync_surfaces_older :
    let run (ops : List ConsumerOp) := (runSteps step (.new 1 1 1)
      ([exampleSubscribe, .markSent "sub", exampleReply "s"] ++ ops)).2
    let resynced := run [exampleUpdate "s" 5, .resync "sub", exampleUpdate "s" 3]
    let moved := run [exampleUpdate "s" 5, exampleReply "s1", exampleReply "s2", exampleReply "s3",
      exampleReply "s4", exampleReply "s5", exampleUpdate "s" 3]
    let surfaced (ds : List Delivery) := ds.map fun d => (d.topic, d.stream, d.key, d.seq)
    surfaced resynced = [("t", some "s", some "k", 5), ("t", some "s", some "k", 3)] ∧
      surfaced moved = [("t", some "s", some "k", 5), ("t", some "s", some "k", 3)] ∧
      ¬resynced.Pairwise (InOrder "sub") ∧ ¬moved.Pairwise (InOrder "sub") := by
  decide +kernel

end Consumer

end OfflineProtocol
