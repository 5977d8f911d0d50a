import OfflineProtocol.ProviderTable

/-! What each call on a provider does to the subscription table, as events of
the table machine, and whom its frames go to. -/
namespace OfflineProtocol.Provider
open KeyedTable EventTrace List

structure Serves (a b : ProviderSub) : Prop where
  terms : SameTerms a b
  admitted : b.admitted = a.admitted
  reported : b.patternFullReported = a.patternFullReported
  full : b.patternFull → a.patternFull ∨ a.isPattern
  quiet : Quiet a → Quiet b

variable (subId : String) (sub : ProviderSub) (f : SubscriptionFrame)

lemma SameTerms.isPattern (h : SameTerms a b) : b.isPattern = a.isPattern := by
  rw [ProviderSub.isPattern, ProviderSub.isPattern, h.topic]

lemma Serves.refl (a) : Serves a a := ⟨.refl a, rfl, rfl, Or.inl, id⟩

lemma Serves.trans (h : Serves a b) (h' : Serves b c) : Serves a c where
  terms := h.terms.trans h'.terms
  admitted := h'.admitted.trans h.admitted
  reported := h'.reported.trans h.reported
  full hc := by
    rcases h'.full hc with hb | hb
    · exact h.full hb
    · exact .inr (h.terms.isPattern ▸ hb)
  quiet := h'.quiet ∘ h.quiet

lemma Serves.revision (h : Serves a b) : Revision a b := ⟨h.terms, h.quiet⟩

/-- Changing what waits for a subscription and when it was last sent something
serves it, if nothing new waits for one not let in. -/
lemma serves_of_dirty (h : ¬a.admitted → a.dirty = [] → dirty = []) :
    Serves a { a with dirty := dirty, lastSent := lastSent } :=
  ⟨⟨rfl, rfl, rfl, rfl⟩, rfl, rfl, Or.inl, fun hq hn => h hn (hq hn)⟩

lemma serves_follows (topic mode) : Serves sub (sub.follows topic mode).1 := by
  unfold ProviderSub.follows
  split_ifs with hpat
  · exact .refl sub
  · exact ⟨⟨rfl, rfl, rfl, rfl⟩, rfl, rfl, fun _ => .inr hpat, id⟩
  · exact ⟨⟨rfl, rfl, rfl, rfl⟩, rfl, rfl, .inl, id⟩
  · exact .refl sub
  · exact .refl sub

lemma serves_followAll {names : List String} {sub} :
    Serves sub (names.foldl (fun sub name => (sub.follows name sub.mode).1) sub) :=
  foldlRecOn names _ (.refl sub) fun sub h name _ => h.trans (serves_follows sub name sub.mode)

lemma serves_followExisting (topics) : Serves sub (sub.followExisting topics) := by
  unfold ProviderSub.followExisting
  split_ifs
  · exact serves_followAll
  · exact .refl sub

def SentFor : Prop :=
  f.recipient = sub.subscriber ∧ ∀ u, f.content.wire = .update u → u.subId = subId

lemma sentFor_updateFrame {subId sub} :
    SentFor subId sub (updateFrame sub.subscriber subId topic stream seq key body snapshot) := by
  refine ⟨rfl, fun u hu => ?_⟩
  have hwire := (encode_wire _).symm.trans hu
  cases hwire
  rfl

lemma sentFor_topicFrame {subId name sub}
      : SentFor subId sub (sub.topicFrame subId name topic seq key body snapshot) :=
  sentFor_updateFrame

lemma SentFor.of_terms {subId f}
    (h : SentFor subId b f) (ht : SameTerms a b) : SentFor subId a f :=
  ⟨h.1.trans ht.subscriber, h.2⟩

lemma catchUpLatest_spec {subId sub name topic} {sameStream resync fresh now} :
    let r := catchUpLatest subId sub name topic sameStream resync fresh now
    Serves sub r.1 ∧ ∀ f ∈ r.2.1, SentFor subId sub f := by
  intro r
  have hr : r = _ ∨ r = _ := ite_eq_or_eq _ _ _
  rcases hr with hr | hr
  · rw [hr]
    constructor
    · apply serves_of_dirty
      intro _ hd
      simp only [hd, filter_nil]
    intro f hf
    obtain ⟨e, -, rfl⟩ := mem_map.1 hf
    exact sentFor_topicFrame
  · rw [hr]
    exact ⟨.refl sub, by simp⟩

lemma replayAfter_sentFor {subId sub}
    {after} : ∀ f ∈ replayAfter subId sub name topic after, SentFor subId sub f := by
  intro f hf
  obtain ⟨e, -, rfl⟩ := mem_map.1 hf
  exact sentFor_topicFrame

lemma fromCheckpoint_sentFor {subId sub}
    (h : fromCheckpoint subId sub name topic = some (frames, caught)) :
    ∀ f ∈ frames, SentFor subId sub f := by
  unfold fromCheckpoint at h
  split at h
  · cases h
  split_ifs at h
  cases h
  exact forall_mem_cons.2 ⟨sentFor_topicFrame, replayAfter_sentFor⟩

lemma catchUpLog_cases (name topic) (sameStream resync) : fromCheckpoint subId sub name topic =
        some (catchUpLog subId sub name topic sameStream resync) ∨
      (∃ position, sameStream = some position ∧ topic.bufferCoversAfter position.seq ∧
        catchUpLog subId sub name topic sameStream resync =
          (replayAfter subId sub name topic (min position.seq topic.lastSeq),
            ⟨min position.seq topic.lastSeq, false⟩)) ∨
      catchUpLog subId sub name topic sameStream resync =
        ([], ⟨topic.lastSeq, sameStream.isSome⟩) := by
  unfold catchUpLog
  cases hc : fromCheckpoint subId sub name topic with
  | none =>
    cases sameStream with
    | none => simp
    | some position =>
      by_cases hcover : topic.bufferCoversAfter position.seq = true
      · simp [hcover]
      · simp [hcover]
  | some caught =>
    cases resync with
    | true => simp
    | false =>
      cases sameStream with
      | none => simp
      | some position =>
        by_cases hcover : topic.bufferCoversAfter position.seq = true
        · simp [hcover]
        · simp [hcover]

lemma catchUpTopic_spec (subId sub name topic) (sameStream resync fresh now) :
    let r := catchUpTopic subId sub name topic sameStream resync fresh now
    Serves sub r.1 ∧ ∀ f ∈ r.2.1, SentFor subId sub f := by
  unfold catchUpTopic
  cases topic.mode with
  | latest => exact catchUpLatest_spec
  | log =>
    refine ⟨.refl sub, fun f hf => ?_⟩
    rcases catchUpLog_cases subId sub name topic sameStream resync with h | ⟨_, -, -, h⟩ | h
    · exact fromCheckpoint_sentFor h f hf
    · simp only [h] at hf
      exact replayAfter_sentFor f hf
    simp only [h] at hf
    cases hf

lemma catchUpFollowed_spec (p : Provider) (subId resume) (resync fresh now) (names sub) :
    let r := p.catchUpFollowed subId resume resync fresh now names sub
    Serves sub r.1 ∧ ∀ f ∈ r.2.2, SentFor subId sub f := by
  induction names generalizing sub with
  | nil => exact ⟨.refl sub, by simp [catchUpFollowed]⟩
  | cons name names ih =>
    unfold catchUpFollowed
    cases get p.topics (sub.serviceId, name) with
    | none => exact ih sub
    | some topic =>
      obtain ⟨hserves, hframes⟩ := catchUpTopic_spec subId sub name topic
        (patternPosition name topic resume fresh) resync fresh now
      obtain ⟨hserves', hframes'⟩ := ih (catchUpTopic subId sub name topic
        (patternPosition name topic resume fresh) resync fresh now).1
      exact ⟨hserves.trans hserves', forall_mem_append.2 ⟨hframes, fun f hf =>
        (hframes' f hf).of_terms hserves.terms⟩⟩

lemma send_spec (interval now u subId) {sub} (hin : sub.admitted) :
    let r := send interval now u subId sub
    Serves sub r.1 ∧ ∀ f ∈ r.2.2, SentFor subId sub f := by
  have hdirty (dirty : List (String × String)) (lastSent : Option ℕ) :
      Serves sub { sub with dirty := dirty, lastSent := lastSent } :=
    serves_of_dirty fun hn => absurd hin hn
  unfold send
  intro r
  cases hk : u.key with
  | none =>
    simp only [r, hk]
    exact ⟨.refl sub, forall_mem_singleton.2 sentFor_updateFrame⟩
  | some key =>
    simp only [r, hk]
    split_ifs
    · exact ⟨hdirty _ _, forall_mem_singleton.2 sentFor_updateFrame⟩
    · exact ⟨hdirty _ _, by simp⟩

lemma publishTo_spec (interval now u subId sub) :
    let r := publishTo interval now u subId sub
    Serves sub r.1 ∧ ∀ f ∈ r.2.2, sub.admitted ∧ SentFor subId sub f := by
  unfold publishTo
  split_ifs with htakes
  · have hserves := serves_follows sub u.topic u.mode
    have hin : (sub.follows u.topic u.mode).1.admitted := hserves.admitted ▸ htakes.1
    have hsend := send_spec interval now u subId hin
    simp only
    split_ifs
    · exact ⟨hserves.trans hsend.1, fun f hf => ⟨htakes.1, (hsend.2 f hf).of_terms hserves.terms⟩⟩
    · exact ⟨hserves, by simp⟩
  · exact ⟨.refl sub, by simp⟩

lemma flushDirty_spec (topics interval now) (subId sub) (hq : Quiet sub) :
    let r := flushDirty topics interval now subId sub
    Serves sub r.1 ∧ ∀ f ∈ r.2, sub.admitted ∧ SentFor subId sub f := by
  unfold flushDirty
  split_ifs with hdue
  · refine ⟨serves_of_dirty fun _ _ => rfl, fun f hf => ?_⟩
    have hin : sub.admitted := by
      by_contra hn
      exact hdue.1 (hq hn)
    obtain ⟨d, -, hf⟩ := mem_flatMap.1 hf
    unfold dirtyFrame at hf
    split at hf
    · cases hf
    split at hf
    · cases hf
    rw [mem_singleton.1 hf]
    exact ⟨hin, sentFor_updateFrame⟩
  · exact ⟨.refl sub, by simp⟩

def Plain : Prop := ∀ u, f.content.wire ≠ .update u

lemma plain_reply {f} (h : f.content = encode (.subscribeReply payload)) : Plain f := by
  intro u hu
  rw [h, encode_wire] at hu
  cases hu

lemma plain_unsubscribe {recipient subId reason} :
    Plain (unsubscribeFrame recipient subId reason) := by
  intro u hu
  rw [unsubscribeFrame, encode_wire] at hu
  cases hu

lemma plain_refuse {sender subId status reason} :
    Plain (refuse sender subId status reason) := plain_reply rfl

lemma clearFor_spec {serviceId topicName stream subId sub} :
    let r := clearFor serviceId topicName stream subId sub
    Serves sub r.1 ∧ ∀ f ∈ r.2, Plain f := by
  unfold clearFor
  split_ifs
  · exact ⟨serves_of_dirty fun _ hd => by simp only [hd, filter_nil],
      forall_mem_singleton.2 (plain_reply rfl)⟩
  · exact ⟨serves_of_dirty fun _ hd => by simp only [hd, filter_nil],
      forall_mem_singleton.2 (plain_reply rfl)⟩
  · exact ⟨.refl sub, by simp⟩

def Concerns (who : String → Prop) (p : Provider) : TableEvent → Prop
  | .opened _ sub => who sub.subscriber
  | .revised subs => ∀ id held, get p.subs id = some held → ¬who held.subscriber →
    get subs id = some held
  | .expired id => ∀ held, get p.subs id = some held → who held.subscriber
  | .ended _ sub _ => who sub.subscriber
  | .topics _ => ∀ s, who s

def Addressed (p : Provider) (f : SubscriptionFrame) : Prop :=
  ∀ u, f.content.wire = .update u →
    ∃ sub, get p.subs u.subId = some sub ∧ sub.admitted ∧ sub.subscriber = f.recipient

structure Conducts (who : String → Prop) (p p' : Provider) (frames : List SubscriptionFrame) :
    Prop where
  runs : ∃ es, tableMachine.Runs p es p' ∧ tableMachine.Along (Concerns who) p es
  frames : ∀ f ∈ frames, who f.recipient ∧ Addressed p' f

section
variable {p : Provider} {frames : List SubscriptionFrame}

lemma Plain.addressed {f} (h : Plain f) {p} : Addressed p f :=
  fun u hu => absurd hu (h u)

lemma SentFor.addressed {f subId sub sub'}
    (h : SentFor subId sub f) (hg : get p.subs subId = some sub') (hin : sub'.admitted)
    (hs : sub'.subscriber = sub.subscriber) : Addressed p f := by
  intro u hu
  rw [h.2 u hu]
  exact ⟨sub', hg, hin, hs.trans h.1.symm⟩

lemma conducts_of_plain (h : ∀ f ∈ frames, who f.recipient ∧ Plain f) : Conducts who p p frames :=
  ⟨⟨[], Machine.runs_nil, trivial⟩, fun f hf => ⟨(h f hf).1, (h f hf).2.addressed⟩⟩

lemma conducts_nothing : Conducts who p p [] := conducts_of_plain (by simp)

lemma conducts_event (h : canOccur p e) (hc : Concerns who p e)
    (hf : ∀ f ∈ frames, who f.recipient ∧ Addressed (applyEvent p e) f) :
    Conducts who p (applyEvent p e) frames :=
  ⟨⟨[e], Machine.runs_single h, hc, trivial⟩, hf⟩

def KeepsAdmitted (p p' : Provider) : Prop :=
  ∀ id sub, get p.subs id = some sub → sub.admitted →
    ∃ sub', get p'.subs id = some sub' ∧ sub'.admitted ∧ sub'.subscriber = sub.subscriber

lemma Addressed.keeps {f} (h : Addressed p f) (hk : KeepsAdmitted p p') : Addressed p' f := by
  intro u hu
  obtain ⟨sub, hg, hin, hs⟩ := h u hu
  obtain ⟨sub', hg', hin', hs'⟩ := hk u.subId sub hg hin
  exact ⟨sub', hg', hin', hs'.trans hs⟩

section
variable (h : Conducts who p p' frames)
include h

lemma Conducts.append (h' : Conducts who p' p'' frames')
    (hk : (∀ f ∈ frames, Plain f) ∨ KeepsAdmitted p' p'') :
    Conducts who p p'' (frames ++ frames') := by
  obtain ⟨es, hr, hc⟩ := h.runs
  obtain ⟨es', hr', hc'⟩ := h'.runs
  refine ⟨⟨es ++ es', hr.append hr', ?_⟩, fun f hf => ?_⟩
  · rw [Machine.along_append, hr.replays]
    exact ⟨hc, hc'⟩
  rcases mem_append.1 hf with hf | hf
  · refine ⟨(h.frames f hf).1, ?_⟩
    rcases hk with hplain | hkeeps
    · exact (hplain f hf).addressed
    · exact (h.frames f hf).2.keeps hkeeps
  · exact h'.frames f hf

lemma Conducts.mono (hw : ∀ s, who s → who' s) : Conducts who' p p' frames := by
  obtain ⟨es, hr, hc⟩ := h.runs
  refine ⟨⟨es, hr, Machine.along_mono hc ?_⟩, fun f hf => ⟨hw _ (h.frames f hf).1,
    (h.frames f hf).2⟩⟩
  intro q e he
  cases e with
  | opened id sub => exact hw _ he
  | revised subs => exact fun id held hg hn => he id held hg fun hh => hn (hw _ hh)
  | expired id => exact fun held hg => hw _ (he held hg)
  | ended id sub order => exact hw _ he
  | topics topics => exact fun s => hw s (he s)

lemma Conducts.isolated :
    (∀ id held, ¬who held.subscriber → (get p.subs id = some held ↔ get p'.subs id = some held)) ∧
      ((∃ s, ¬who s) → p'.topics = p.topics) := by
  obtain ⟨es, ⟨rfl, he⟩, hc⟩ := h.runs
  clear h
  induction es generalizing p with
  | nil => exact ⟨fun _ _ _ => .rfl, fun _ => rfl⟩
  | cons e es ih =>
    obtain ⟨hsubs, htop⟩ := ih hc.2 he.2
    have hhead : (∀ id held, ¬who held.subscriber →
        (get p.subs id = some held ↔ get (applyEvent p e).subs id = some held)) ∧
        ((∃ s, ¬who s) → (applyEvent p e).topics = p.topics) := by
      have hcan : canOccur p e := he.1
      have hfor : Concerns who p e := hc.1
      cases e with
      | opened id sub =>
        refine ⟨fun a held hn => ?_, fun _ => rfl⟩
        show _ ↔ get (p.subs.insert id sub) a = some held
        rw [get_insert]
        split_ifs with ha
        · subst ha
          rw [hcan.1]
          constructor
          · intro hf
            cases hf
          intro hf
          cases hf
          exact absurd hfor hn
        · exact .rfl
      | revised subs =>
        refine ⟨fun a held hn => ⟨fun hg => hfor a held hg hn, fun hg => ?_⟩, fun _ => rfl⟩
        obtain ⟨old, hold, hrev⟩ := revised_get hcan hg
        have hkept := hfor a old hold (by rwa [← hrev.terms.subscriber])
        have heq : some old = some held := hkept.symm.trans hg
        rwa [heq] at hold
      | expired id =>
        refine ⟨fun a held hn => ?_, fun _ => rfl⟩
        show _ ↔ get (p.subs.erase id) a = some held
        rw [get_erase]
        split_ifs with ha
        · subst ha
          constructor
          · intro hg
            exact absurd (hfor held hg) hn
          intro hf
          cases hf
        · exact .rfl
      | ended id sub order =>
        refine ⟨fun a held hn => ?_, fun _ => rfl⟩
        show _ ↔ get (p.subs.erase id) a = some held
        rw [get_erase]
        split_ifs with ha
        · subst ha
          constructor
          · intro hg
            have heq : some sub = some held := hcan.symm.trans hg
            cases heq
            exact absurd hfor hn
          · intro hf
            cases hf
        · exact .rfl
      | topics topics =>
        refine ⟨fun _ _ _ => .rfl, fun hs => hs.elim fun s hs => absurd (hfor s) hs⟩
    refine ⟨fun id held hn => ?_, fun hs => ?_⟩
    · rw [hhead.1 id held hn]
      exact hsubs id held hn
    rw [← hhead.2 hs]
    exact htop hs

end

end

def PatternsOnly (p : Provider) : Prop :=
  ∀ id sub, get p.subs id = some sub → sub.patternFull → sub.isPattern

def Settled (p : Provider) : Prop :=
  ∀ id sub, get p.subs id = some sub →
    sub.patternFull → sub.isPattern ∧ (sub.admitted → sub.patternFullReported)

lemma Settled.patternsOnly (h : Settled p) : PatternsOnly p :=
  fun id sub hg hf => (h id sub hg hf).1

lemma Settled.of_subset (h : Settled p)
    (hsub : ∀ id sub, get p'.subs id = some sub → get p.subs id = some sub) : Settled p' :=
  fun id sub hg => h id sub (hsub id sub hg)

section
variable {p : Provider}

lemma canOccur_revise {id} (hg : get p.subs id = some a)
    (h : Revision a b) : canOccur p (.revised (p.subs.insert id b)) := by
  intro id'
  rw [get_insert]
  split_ifs with hid
  · rw [hid, hg]
    exact .some h
  cases get p.subs id' with
  | none => exact .none
  | some c => exact .some (.refl c)

lemma concerns_revise {id} (hg : get p.subs id = some a) :
    Concerns (· = a.subscriber) p (.revised (p.subs.insert id b)) := by
  intro id' held hg' hn
  rw [get_insert]
  split_ifs with hid
  · rw [hid, hg] at hg'
    cases hg'
    exact absurd rfl hn
  · exact hg'

lemma canOccur_reviseAll {f} (h : ∀ id sub, get p.subs id = some sub → Revision sub (f id sub)) :
    canOccur p (.revised (mapValues p.subs f)) := by
  intro id
  rw [get_mapValues]
  cases hg : get p.subs id with
  | none => exact .none
  | some sub => exact .some (h id sub hg)

lemma get_of_get_mapValues {f id} {sub} (h : get (mapValues p.subs f) id = some sub) :
    ∃ old, get p.subs id = some old ∧ sub = f id old := by
  rw [get_mapValues, Option.map_eq_some_iff] at h
  obtain ⟨old, hold, rfl⟩ := h
  exact ⟨old, hold, rfl⟩

end

end OfflineProtocol.Provider
