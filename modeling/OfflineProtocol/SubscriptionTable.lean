import OfflineProtocol.ProviderAnswers

/-! The provider's subscription table over whole runs: arbitrary calls with
arbitrary frames, registrations and admissions keep it bounded, keep
subscribers apart, and send updates to the admitted only. -/
namespace OfflineProtocol.Provider
open KeyedTable EventTrace List

section
variable {p : Provider}

lemma patternsOnly_insert (h : PatternsOnly p) {id} (hs : sub.patternFull → sub.isPattern) :
    PatternsOnly { p with subs := p.subs.insert id sub } := by
  intro id' held hg hfull
  rcases of_get_insert hg with ⟨-, rfl⟩ | ⟨-, hg'⟩
  · exact hs hfull
  · exact h id' held hg' hfull

lemma othersTold_insert (h : Settled p) {id sub} :
    OthersTold { p with subs := p.subs.insert id sub } id := by
  intro id' held hne hg
  have hg' : get (p.subs.insert id sub) id' = some held := hg
  rw [get_insert_ne hne] at hg'
  exact h.othersTold id' held hne hg'

lemma settled_insert (h : Settled p) {id}
    (hs : sub.patternFull → sub.isPattern) (hn : sub.admitted = false) :
    Settled { p with subs := p.subs.insert id sub } := by
  intro id' held hg hfull
  rcases of_get_insert hg with ⟨-, rfl⟩ | ⟨-, hg'⟩
  · refine ⟨hs hfull, fun hin => ?_⟩
    rw [hn] at hin
    cases hin
  · exact h id' held hg' hfull

lemma revise_answer_conducts {now} (hs : Settled p) (hg : get p.subs subId = some a)
    (hr : Revision a b) (hin : b.admitted) (hfull : b.patternFull = a.patternFull) :
    let r := { p with subs := p.subs.insert subId b }.answer order subId resume resync fresh now
    Conducts (· = a.subscriber) p r.1 r.2.frames ∧ Settled r.1 := by
  have hpo : PatternsOnly { p with subs := p.subs.insert subId b } := by
    apply patternsOnly_insert hs.patternsOnly
    intro hb
    rw [hr.terms.isPattern]
    exact (hs subId a hg (hfull ▸ hb)).1
  obtain ⟨hanswer, hsettled⟩ := answer_conducts order resume resync fresh now
    get_insert_self hin hpo (othersTold_insert hs)
  have hrevi : Conducts (· = a.subscriber) p { p with subs := p.subs.insert subId b } [] :=
    conducts_event (e := .revised _) (canOccur_revise hg hr) (concerns_revise hg) (by simp)
  refine ⟨?_, hsettled⟩
  rw [hr.terms.subscriber] at hanswer
  exact hrevi.append hanswer (Or.inl (by simp))

lemma renewHeld_conducts {now verdict} (hs : Settled p) (hg : get p.subs payload.subId = some sub)
    (hsend : sub.subscriber = sender) :
    let r := p.renewHeld order payload sub sender now verdict
    Conducts (· = sender) p r.1 r.2.frames ∧ Settled r.1 := by
  subst hsend
  unfold renewHeld
  -- A revision of the subscription that is not let in afterwards is the whole renewal.
  have hrev (b : ProviderSub) (hr : Revision sub b) (hfull : b.patternFull = sub.patternFull)
      (hn : b.admitted = false) :
      Conducts (· = sub.subscriber) p { p with subs := p.subs.insert payload.subId b } [] ∧
        Settled { p with subs := p.subs.insert payload.subId b } := by
    refine ⟨conducts_event (e := .revised _) (canOccur_revise hg hr) (concerns_revise hg)
      (by simp), settled_insert hs (fun hb => ?_) hn⟩
    rw [hr.terms.isPattern]
    exact (hs payload.subId sub hg (hfull ▸ hb)).1
  by_cases hrej : verdict = .reject
  · simp only [hrej, if_true]
    refine ⟨endSub_conducts hg rfl (forall_mem_singleton.2 ?_), hs.endSub⟩
    split_ifs
    · exact ⟨rfl, plain_unsubscribe⟩
    · exact ⟨rfl, plain_refuse⟩
  have hren : Revision sub (renewed sub payload now) := ⟨⟨rfl, rfl, rfl, rfl⟩, fun hq => hq⟩
  simp only [if_neg hrej]
  by_cases hin : (renewed sub payload now).admitted = false
  · simp only [if_pos hin]
    exact hrev (stillAsked (renewed sub payload now) payload)
      (hren.trans ⟨⟨rfl, rfl, rfl, rfl⟩, fun hq => hq⟩) rfl hin
  simp only [if_neg hin]
  by_cases hask : verdict = .ask ∧ (renewed sub payload now).admittedByApp = false
  · simp only [if_pos hask]
    exact hrev (askedAgain (renewed sub payload now) payload now)
      (hren.trans ⟨⟨rfl, rfl, rfl, rfl⟩, fun _ _ => rfl⟩) rfl rfl
  simp only [if_neg hask]
  exact revise_answer_conducts hs hg hren (by simpa using hin) rfl

lemma opened_spec (payload sender now verdict) :
    let sub := p.opened payload sender now verdict
    (sub.subscriber = sender ∧ sub.serviceId = payload.serviceId ∧ sub.topic = payload.topic) ∧
      sub.admitted = decide (verdict = .accept) ∧ Quiet sub ∧
      (sub.patternFull → sub.isPattern) := by
  have hserves : Serves _ (p.opened payload sender now verdict) := serves_followExisting _ p.topics
  refine ⟨⟨hserves.terms.subscriber, hserves.terms.serviceId, hserves.terms.topic⟩,
    hserves.admitted, hserves.quiet fun _ => rfl, fun hfull => ?_⟩
  rw [hserves.terms.isPattern]
  rcases hserves.full hfull with hf | hf
  · cases hf
  · exact hf

lemma conducts_refuse : Conducts (· = sender) p p [refuse sender subId status reason] :=
  conducts_of_plain (forall_mem_singleton.2 ⟨rfl, plain_refuse⟩)

lemma openNew_conducts (order)
    (now verdict) (hs : Settled p) (hnone : get p.subs payload.subId = none)
    (hret : ¬p.isRetired sender payload.subId)
    (huniq : ∀ id held, get p.subs id = some held → ¬sameTopic payload sender held) :
    let r := p.openNew order payload sender now verdict
    Conducts (· = sender) p r.1 r.2.frames ∧ Settled r.1 := by
  obtain ⟨⟨hsubscribed, hservi, htopic⟩, hadmits, hquiet, hpat⟩ :=
    opened_spec (p := p) payload sender now verdict
  unfold openNew
  by_cases hfull : maxProviderSubscriptions ≤ p.subs.entries.length ∨
      maxSubscriptionsPerPeer ≤ (values p.subs).countP fun s => s.subscriber = sender
  · simp only [if_pos hfull]
    exact ⟨conducts_refuse, hs⟩
  simp only [if_neg hfull]
  -- Opening any subscription on the frame's terms is one event of the table.
  have hopened (sub : ProviderSub) (ht : SameTerms (p.opened payload sender now verdict) sub)
      (hq : Quiet sub) :
      Conducts (· = sender) p { p with subs := p.subs.insert payload.subId sub } [] := by
    have hsub : sub.subscriber = sender := ht.subscriber.trans hsubscribed
    refine conducts_event (e := .opened payload.subId sub) ⟨hnone, ?_, hq, ?_, ?_, ?_⟩ hsub
      (by simp)
    · rwa [hsub]
    · rintro id held hg ⟨h1, h2, h3⟩
      apply huniq id held hg
      simp only [sameTopic, decide_eq_true_eq]
      exact ⟨h1.trans hsub, h2.trans (ht.serviceId.trans hservi), h3.trans (ht.topic.trans htopic)⟩
    · omega
    · rw [hsub]
      omega
  cases verdict with
  | reject => exact ⟨conducts_refuse, hs⟩
  | ask =>
    exact ⟨hopened _ ⟨rfl, rfl, rfl, rfl⟩ hquiet, settled_insert hs hpat hadmits⟩
  | accept =>
    have hin : (p.opened payload sender now .accept).admitted := hadmits
    obtain ⟨hanswer, hsettled⟩ := answer_conducts order payload.resume payload.resync true now
      get_insert_self hin
      (patternsOnly_insert hs.patternsOnly hpat)
      (othersTold_insert hs)
    rw [hsubscribed] at hanswer
    exact ⟨(hopened _ (.refl _) hquiet).append hanswer (Or.inl (by simp)), hsettled⟩

lemma mem_idsWhere {which id} :
    id ∈ p.idsWhere order which ↔ ∃ sub, get p.subs id = some sub ∧ which sub := by
  simp only [idsWhere, mem_map, mem_filter, Prod.exists, mem_visit]
  constructor
  · rintro ⟨id', sub, ⟨hg, hw⟩, rfl⟩
    exact ⟨sub, hg, hw⟩
  rintro ⟨sub, hg, hw⟩
  exact ⟨id, sub, ⟨hg, hw⟩, rfl⟩

lemma subscribeNew_conducts {now} (hs : Settled p) (hnone : get p.subs payload.subId = none)
    (hret : ¬p.isRetired sender payload.subId) :
    let r := p.subscribeNew order payload sender now verdict
    Conducts (· = sender) p r.1 r.2.frames ∧ Settled r.1 := by
  unfold subscribeNew
  simp only
  split_ifs with hmismatch hrenewed
  · exact ⟨conducts_refuse, hs⟩
  · exact ⟨conducts_nothing, hs⟩
  obtain ⟨hget, -, hmem⟩ := endEach_spec p order endedReplaced
    (p.idsWhere order (sameTopic payload sender))
  obtain ⟨hends, hplain⟩ : Conducts (· = sender) p _ _ ∧ _ :=
    endEach_conducts p order endedReplaced (p.idsWhere order (sameTopic payload sender))
      fun id hid sub hg => by
        obtain ⟨sub', hg', hsame⟩ := mem_idsWhere.1 hid
        rw [hg] at hg'
        cases hg'
        exact ⟨(of_decide_eq_true hsame).1, by simp [endedReplaced]⟩
  generalize p.endEach order endedReplaced (p.idsWhere order (sameTopic payload sender)) = r1 at *
  have hsub : ∀ id sub, get r1.1.subs id = some sub →
      get p.subs id = some sub ∧ id ∉ p.idsWhere order (sameTopic payload sender) := by
    intro id sub hg
    rw [hget] at hg
    split_ifs at hg with hid
    exact ⟨hg, hid⟩
  obtain ⟨hopen, hsettled⟩ := openNew_conducts order now verdict
    (hs.of_subset fun id sub hg => (hsub id sub hg).1)
    (by rw [hget, hnone]; simp)
    (fun hr => by
      obtain ⟨e, he, hname⟩ := any_eq_true.1 hr
      obtain ⟨hname1, hname2⟩ := of_decide_eq_true hname
      rcases hmem e he with hold | hheld
      · exact hret (any_eq_true.2 ⟨e, hold, hname⟩)
      rw [hname2, hnone] at hheld
      cases hheld)
    (fun id held hg hsame =>
      (hsub id held hg).2 (mem_idsWhere.2 ⟨held, (hsub id held hg).1, hsame⟩))
  exact ⟨hends.append hopen (Or.inl hplain), hsettled⟩

lemma handleSubscribe_conducts (hs : Settled p) {order content}
    {sender now} (registered verdict) :
    let r := p.handleSubscribe order content sender now registered verdict
    Conducts (· = sender) p r.1 r.2.frames ∧ Settled r.1 := by
  unfold handleSubscribe
  split
  · exact ⟨conducts_nothing, hs⟩
  split_ifs with hid hret hinvalid hreg
  · exact ⟨conducts_nothing, hs⟩
  · exact ⟨conducts_nothing, hs⟩
  · exact ⟨conducts_refuse, hs⟩
  · exact ⟨conducts_refuse, hs⟩
  split
  · rename_i sub hg
    split_ifs with hown
    · exact renewHeld_conducts hs hg hown.1
    · exact ⟨conducts_nothing, hs⟩
  · rename_i hg
    exact subscribeNew_conducts hs hg (by simpa using hret)

lemma handleUnsubscribe_conducts (hs : Settled p) {order content} :
    let r := p.handleUnsubscribe order content sender
    Conducts (· = sender) p r.1 (r.2.getD ∅).frames ∧ Settled r.1 := by
  unfold handleUnsubscribe
  split
  · exact ⟨conducts_nothing, hs⟩
  split
  · exact ⟨conducts_nothing, hs⟩
  rename_i sub hg
  split_ifs with hown
  · exact ⟨endSub_conducts hg hown (by simp), hs.endSub⟩
  · exact ⟨conducts_nothing, hs⟩

end

def outputOf (result : Except ServiceError SubscriptionOutput) : SubscriptionOutput :=
  match result with
  | .ok out => out
  | .error _ => ∅

section
variable {p : Provider}

abbrev Everyone (_ : String) : Prop := True

section
variable (hs : Settled p)
include hs

lemma accept_conducts {order subId now} : let r := p.accept order subId now
    Conducts Everyone p r.1 (outputOf r.2).frames ∧ Settled r.1 := by
  unfold accept
  split
  · exact ⟨conducts_nothing, hs⟩
  rename_i sub hg
  split_ifs with hin
  · exact ⟨conducts_nothing, hs⟩
  have hr : Revision sub (letIn sub now) := ⟨⟨rfl, rfl, rfl, rfl⟩, fun _ hn => absurd rfl hn⟩
  obtain ⟨hanswer, hsettled⟩ := revise_answer_conducts hs hg hr rfl rfl
  exact ⟨hanswer.mono fun _ _ => trivial, hsettled⟩

lemma reject_conducts {order subId reason} : let r := p.reject order subId reason
    Conducts Everyone p r.1 (outputOf r.2).frames ∧ Settled r.1 := by
  unfold reject
  split
  · exact ⟨conducts_nothing, hs⟩
  rename_i sub hg
  by_cases hin : sub.admitted = true
  · rw [if_pos hin]
    exact ⟨conducts_nothing, hs⟩
  rw [if_neg hin]
  exact ⟨endSub_conducts hg trivial (forall_mem_singleton.2 ⟨trivial, plain_refuse⟩), hs.endSub⟩

lemma end_conducts {order subId reason} : let r := p.end order subId reason
    Conducts Everyone p r.1 (outputOf r.2).frames ∧ Settled r.1 := by
  unfold Provider.end
  split
  · exact ⟨conducts_nothing, hs⟩
  rename_i sub hg
  exact ⟨endSub_conducts hg trivial (forall_mem_singleton.2 ⟨trivial, plain_unsubscribe⟩), hs.endSub⟩

/-- Endings of any number of subscriptions, each told with plain frames. -/
lemma endEach_everyone (order) (ended)
    (hplain : ∀ id sub, ∀ f ∈ (ended id sub).frames, Plain f) (ids) :
    let r := p.endEach order ended ids
    Conducts Everyone p r.1 r.2.frames ∧ (∀ f ∈ r.2.frames, Plain f) ∧ Settled r.1 := by
  obtain ⟨hget, -, -⟩ := endEach_spec p order ended ids
  obtain ⟨hends, hframes⟩ : Conducts Everyone p _ _ ∧ _ := endEach_conducts p order ended ids
    fun id _ sub _ => ⟨trivial, fun f hf => ⟨trivial, hplain id sub f hf⟩⟩
  refine ⟨hends, hframes, hs.of_subset fun id sub hg => ?_⟩
  rw [hget] at hg
  split_ifs at hg
  exact hg

omit hs in
lemma topics_conducts (p topics) : Conducts Everyone p { p with topics } [] :=
  conducts_event (e := .topics topics) trivial (fun _ => trivial) (by simp)

omit hs in
lemma Conducts.topics {frames} (h : Conducts Everyone p p' frames) {topics} :
    Conducts Everyone p { p' with topics } frames := by
  have happ := h.append (topics_conducts p' topics)
    (Or.inr fun id sub hg hin => ⟨sub, hg, hin, rfl⟩)
  rwa [append_nil] at happ

lemma serviceUnregistered_conducts {order serviceId} :
    let r := p.serviceUnregistered order serviceId
    Conducts Everyone p r.1 r.2.frames ∧ Settled r.1 := by
  obtain ⟨hends, -, hsettled⟩ := endEach_everyone hs order endedUnregistered
    (fun _ _ => forall_mem_singleton.2 plain_unsubscribe)
    (p.idsWhere order fun sub => sub.serviceId = serviceId)
  exact ⟨hends.topics, hsettled⟩

lemma endMismatched_conducts (order serviceId topicName) (mode) :
    let r := p.endMismatched order serviceId topicName mode
    Conducts Everyone p r.1 r.2.frames ∧ (∀ f ∈ r.2.frames, Plain f) ∧ Settled r.1 :=
  endEach_everyone hs order endedMismatched
    (fun _ _ => forall_mem_singleton.2 plain_refuse) _

lemma createTopic_conducts (order) (stream serviceId topicName) (mode) :
    let r := p.createTopic order stream serviceId topicName mode
    Conducts Everyone p r.1 r.2.frames ∧ (∀ f ∈ r.2.frames, Plain f) ∧ Settled r.1 := by
  unfold createTopic
  split
  · exact ⟨conducts_nothing, by simp, hs⟩
  have htopic := topics_conducts p (p.topics.insert (serviceId, topicName) (.new mode stream))
  -- The subscriptions are those of `p`; only the topic is new.
  obtain ⟨hends, hplain, hsettled⟩ := endMismatched_conducts
    (p := { p with topics := p.topics.insert (serviceId, topicName) (.new mode stream) })
    (fun id sub hg => hs id sub hg) order serviceId topicName mode
  exact ⟨htopic.append hends (Or.inl (by simp)), hplain, hsettled⟩

end

lemma serveAll_conducts (hserves : ∀ id sub, get p.subs id = some sub → Serves sub (f id sub))
    (hframes : ∀ g ∈ frames, Plain g ∨
      ∃ id sub, get p.subs id = some sub ∧ sub.admitted ∧ SentFor id sub g) :
    Conducts Everyone p { p with subs := mapValues p.subs f } frames := by
  refine conducts_event (e := .revised _)
    (canOccur_reviseAll fun id sub hg => (hserves id sub hg).revision)
    (fun _ _ _ hn => absurd trivial hn) fun g hg => ⟨trivial, ?_⟩
  rcases hframes g hg with hplain | ⟨id, sub, hget, hin, hsent⟩
  · exact hplain.addressed
  have hs := hserves id sub hget
  have hget' : get (mapValues p.subs f) id = some (f id sub) := by
    rw [get_mapValues, hget]
    rfl
  exact hsent.addressed hget' (hs.admitted ▸ hin) hs.terms.subscriber

lemma patternsOnly_serveAll (h : PatternsOnly p)
    (hserves : ∀ id sub, get p.subs id = some sub → Serves sub (f id sub)) :
    PatternsOnly { p with subs := mapValues p.subs f } := by
  intro id sub hg hfull
  obtain ⟨old, hold, rfl⟩ := get_of_get_mapValues hg
  have hs := hserves id old hold
  rw [hs.terms.isPattern]
  rcases hs.full hfull with hf | hf
  · exact h id old hold hf
  · exact hf

lemma settled_serveAll (h : Settled p) (hserves : ∀ id sub, get p.subs id = some sub →
      Serves sub (f id sub) ∧ (f id sub).patternFull = sub.patternFull) :
    Settled { p with subs := mapValues p.subs f } := by
  intro id sub hg hfull
  obtain ⟨old, hold, rfl⟩ := get_of_get_mapValues hg
  obtain ⟨hs, hsame⟩ := hserves id old hold
  obtain ⟨hpat, htold⟩ := h id old hold (hsame ▸ hfull)
  rw [hs.terms.isPattern, hs.admitted, hs.reported]
  exact ⟨hpat, htold⟩

lemma fanOut_conducts (order u now) :
    let r := p.fanOut order u now
    Conducts Everyone p r.1 r.2.1.frames := by
  apply serveAll_conducts
  · intro id sub _
    exact (publishTo_spec p.minUpdateInterval now u id sub).1
  intro g hg
  obtain ⟨o, ho, hg⟩ := SubscriptionOutput.mem_frames_concat.1 hg
  simp only [map_map, mem_map] at ho
  obtain ⟨⟨id, sub⟩, hm, rfl⟩ := ho
  obtain ⟨hin, hsent⟩ := (publishTo_spec p.minUpdateInterval now u id sub).2 g hg
  exact Or.inr ⟨id, sub, mem_visit.1 hm, hin, hsent⟩

lemma distribute_conducts (h : PatternsOnly p) (order u now) :
    let r := p.distribute order u now
    Conducts Everyone p r.1 r.2.1.frames ∧ Settled r.1 := by
  have hfan := fanOut_conducts (p := p) order u now
  have hpo : PatternsOnly (p.fanOut order u now).1 :=
    patternsOnly_serveAll h fun id sub _ => (publishTo_spec p.minUpdateInterval now u id sub).1
  exact ⟨hfan.append (reportPatternFull_conducts fun _ _ _ _ => trivial)
    (Or.inr (reportPatternFull_keeps order none)), reportPatternFull_settled order none hpo⟩

def publishOutput (result : Except ServiceError (SubscriptionOutput × PublishOutcome)) :
    SubscriptionOutput :=
  outputOf (result.map Prod.fst)

lemma publish_conducts (hs : Settled p) {order stream serviceId topicName} {now} :
    let r := p.publish order stream serviceId topicName key body now
    Conducts Everyone p r.1 (publishOutput r.2).frames ∧ Settled r.1 := by
  unfold publish
  split
  · exact ⟨conducts_nothing, hs⟩
  split_ifs
  · exact ⟨conducts_nothing, hs⟩
  split
  · exact ⟨conducts_nothing, hs⟩
  rename_i mode _
  obtain ⟨hcreate, hplain, hsettled⟩ :=
    createTopic_conducts hs order stream serviceId topicName mode
  generalize p.createTopic order stream serviceId topicName mode = r1 at *
  obtain ⟨p1, ended⟩ := r1
  -- A refused publish leaves whatever creating the topic did, and sends nothing.
  have href : Conducts Everyone p p1 [] := ⟨hcreate.runs, by simp⟩
  simp only
  split
  · exact ⟨href, hsettled⟩
  rename_i topic _
  split_ifs
  · split
    · exact ⟨href, hsettled⟩
    rename_i topic' _
    obtain ⟨hsent, hset'⟩ := distribute_conducts
      (p := { p1 with topics := p1.topics.insert (serviceId, topicName) topic' })
      (fun id sub hg => hsettled.patternsOnly id sub hg) order
      ⟨serviceId, topicName, mode, topic.stream, topic.nextSeq, key, body⟩ now
    exact ⟨(hcreate.topics).append hsent (Or.inl hplain), hset'⟩
  · exact ⟨href, hsettled⟩

lemma setCheckpoint_conducts (hs : Settled p) {order} :
    let r := p.setCheckpoint order stream serviceId topicName body
    Conducts Everyone p r.1 (outputOf r.2).frames ∧ Settled r.1 := by
  unfold setCheckpoint
  split
  · exact ⟨conducts_nothing, hs⟩
  split_ifs
  · exact ⟨conducts_nothing, hs⟩
  obtain ⟨hcreate, hplain, hsettled⟩ :=
    createTopic_conducts hs order stream serviceId topicName .log
  generalize p.createTopic order stream serviceId topicName .log = r1 at *
  obtain ⟨p1, ended⟩ := r1
  have href : Conducts Everyone p p1 [] := ⟨hcreate.runs, by simp⟩
  simp only
  split
  · exact ⟨href, hsettled⟩
  split_ifs
  · exact ⟨hcreate.topics, fun id sub hg => hsettled id sub hg⟩
  · exact ⟨href, hsettled⟩

lemma clearTopic_conducts (hs : Settled p) {order} :
    let r := p.clearTopic order stream serviceId topicName
    Conducts Everyone p r.1 (outputOf r.2).frames ∧ Settled r.1 := by
  unfold clearTopic
  split
  · exact ⟨conducts_nothing, hs⟩
  have hfull (id) (sub) :
      (clearFor serviceId topicName stream id sub).1.patternFull = sub.patternFull := by
    unfold clearFor
    split_ifs <;> rfl
  have hclear : Conducts Everyone p { p with subs := mapValues p.subs fun id sub =>
      (clearFor serviceId topicName stream id sub).1 }
      ((visit p.subs order.subs).flatMap fun e =>
        (clearFor serviceId topicName stream e.1 e.2).2) := by
    apply serveAll_conducts
    · exact fun id sub _ => clearFor_spec.1
    intro g hg
    obtain ⟨⟨id, sub⟩, -, hg⟩ := mem_flatMap.1 hg
    exact Or.inl (clearFor_spec.2 g hg)
  have hsettled := settled_serveAll hs fun id sub _ =>
    ⟨clearFor_spec.1, hfull id sub⟩
  exact ⟨hclear.topics, fun id sub hg => hsettled id sub hg⟩

lemma tick_conducts (hs : Settled p) (hk : WellKept p) (order now) :
    let r := p.tick order now
    Conducts Everyone p r.1 r.2.frames ∧ Settled r.1 := by
  unfold tick
  obtain ⟨hexpired, hplain, hsub⟩ := expireEach_conducts p order (p.expiredAt order now)
  rcases hexp : p.expireEach order (p.expiredAt order now) with ⟨p1, ended⟩
  simp only [hexp] at hexpired hplain hsub ⊢
  have hquiet (id) (sub) (hg : get p1.subs id = some sub) : Quiet sub :=
    hk.quiet id sub (hsub id sub hg)
  have hfull (id) (sub) :
      (flushDirty p1.topics p1.minUpdateInterval now id sub).1.patternFull = sub.patternFull := by
    unfold flushDirty
    split_ifs <;> rfl
  have hserves (id) (sub) (hg : get p1.subs id = some sub) :=
    flushDirty_spec p1.topics p1.minUpdateInterval now id sub (hquiet id sub hg)
  refine ⟨hexpired.append (serveAll_conducts (fun id sub hg => (hserves id sub hg).1) ?_)
    (Or.inl hplain), settled_serveAll (hs.of_subset hsub) fun id sub hg =>
      ⟨(hserves id sub hg).1, hfull id sub⟩⟩
  intro g hg
  obtain ⟨⟨id, sub⟩, hm, hg⟩ := mem_flatMap.1 hg
  have hget := mem_visit.1 hm
  obtain ⟨hin, hsent⟩ := (hserves id sub hget).2 g hg
  exact Or.inr ⟨id, sub, hget, hin, hsent⟩

end

inductive ProviderOp
  | handleSubscribe (order : HashOrder) (content : Content) (sender : String) (now : ℕ)
      (registered : String → Bool) (verdict : String → Admission)
  | handleUnsubscribe (order : HashOrder) (content : Content) (sender : String)
  | accept (order : HashOrder) (subId : String) (now : ℕ)
  | reject (order : HashOrder) (subId reason : String)
  | «end» (order : HashOrder) (subId reason : String)
  | serviceUnregistered (order : HashOrder) (serviceId : String)
  | publish (order : HashOrder) (stream serviceId topicName : String) (key : Option String)
      (body : String) (now : ℕ)
  | setCheckpoint (order : HashOrder) (stream serviceId topicName body : String)
  | clearTopic (order : HashOrder) (stream serviceId topicName : String)
  | tick (order : HashOrder) (now : ℕ)

def ProviderOp.sender : ProviderOp → Option String
  | .handleSubscribe _ _ sender _ _ _ => some sender
  | .handleUnsubscribe _ _ sender => some sender
  | _ => none

def step (p : Provider) : ProviderOp → Provider × List SubscriptionFrame
  | .handleSubscribe order content sender now registered verdict =>
    let (p', out) := p.handleSubscribe order content sender now registered verdict
    (p', out.frames)
  | .handleUnsubscribe order content sender =>
    let (p', out) := p.handleUnsubscribe order content sender
    (p', (out.getD ∅).frames)
  | .accept order subId now =>
    let (p', out) := p.accept order subId now
    (p', (outputOf out).frames)
  | .reject order subId reason =>
    let (p', out) := p.reject order subId reason
    (p', (outputOf out).frames)
  | .end order subId reason =>
    let (p', out) := p.end order subId reason
    (p', (outputOf out).frames)
  | .serviceUnregistered order serviceId =>
    let (p', out) := p.serviceUnregistered order serviceId
    (p', out.frames)
  | .publish order stream serviceId topicName key body now =>
    let (p', out) := p.publish order stream serviceId topicName key body now
    (p', (publishOutput out).frames)
  | .setCheckpoint order stream serviceId topicName body =>
    let (p', out) := p.setCheckpoint order stream serviceId topicName body
    (p', (outputOf out).frames)
  | .clearTopic order stream serviceId topicName =>
    let (p', out) := p.clearTopic order stream serviceId topicName
    (p', (outputOf out).frames)
  | .tick order now =>
    let (p', out) := p.tick order now
    (p', out.frames)

def ProviderOp.concerned (op : ProviderOp) (s : String) : Prop :=
  ∀ sender, op.sender = some sender → s = sender

lemma step_conducts (hs : Settled p) (hk : WellKept p) (op) :
    Conducts op.concerned p (step p op).1 (step p op).2 ∧ Settled (step p op).1 := by
  -- A frame concerns its sender; a call of the application has none.
  have hframe {sender : String} {r : Provider} {frames : List SubscriptionFrame}
      (hop : op.sender = some sender) (h : Conducts (· = sender) p r frames ∧ Settled r) :
      Conducts op.concerned p r frames ∧ Settled r := by
    refine ⟨h.1.mono fun s hsend sender' hop' => ?_, h.2⟩
    rw [hop] at hop'
    cases hop'
    exact hsend
  have hcall {r : Provider} {frames : List SubscriptionFrame} (hop : op.sender = none)
      (h : Conducts Everyone p r frames ∧ Settled r) :
      Conducts op.concerned p r frames ∧ Settled r := by
    refine ⟨h.1.mono fun s _ sender hop' => ?_, h.2⟩
    rw [hop] at hop'
    cases hop'
  cases op with
  | handleSubscribe order content sender now registered verdict =>
    exact hframe rfl (handleSubscribe_conducts hs registered verdict)
  | handleUnsubscribe order content sender =>
    exact hframe rfl (handleUnsubscribe_conducts hs)
  | accept order subId now => exact hcall rfl (accept_conducts hs)
  | reject order subId reason => exact hcall rfl (reject_conducts hs)
  | «end» order subId reason => exact hcall rfl (end_conducts hs)
  | serviceUnregistered order serviceId =>
    exact hcall rfl (serviceUnregistered_conducts hs)
  | publish order stream serviceId topicName key body now =>
    exact hcall rfl (publish_conducts hs)
  | setCheckpoint order stream serviceId topicName body =>
    exact hcall rfl (setCheckpoint_conducts hs)
  | clearTopic order stream serviceId topicName =>
    exact hcall rfl (clearTopic_conducts hs)
  | tick order now => exact hcall rfl (tick_conducts hs hk order now)

lemma reachable_wellKept (interval timeout ops) :
    let p := (runSteps step (new interval timeout) ops).1
    WellKept p ∧ Settled p := by
  apply runSteps_preserves (P := fun p => WellKept p ∧ Settled p)
  · rintro p op ⟨hk, hs⟩
    obtain ⟨hcond, hsettled⟩ := step_conducts hs hk op
    obtain ⟨es, hruns, -⟩ := hcond.runs
    exact ⟨wellKept_runs hruns hk, hsettled⟩
  · exact ⟨wellKept_new, nofun⟩

/-- The policy is asked about a subscribe frame: its id is usable and not
retired, its terms are valid, its service is registered, and it names no
subscription but one of its sender's on its own terms. -/
def PolicyAsked (p : Provider) (payload : SubscribePayload) (sender : String)
    (registered : String → Bool) : Prop :=
  payload.subId ≠ "" ∧ payload.subId.utf8ByteSize ≤ maxSubIdLen ∧
    ¬p.isRetired sender payload.subId ∧ ¬invalidSubscription payload ∧
    registered payload.serviceId ∧
    ∀ sub, get p.subs payload.subId = some sub → sub.subscriber = sender ∧
      payload.serviceId = sub.serviceId ∧ payload.topic = sub.topic ∧ payload.mode = sub.mode

def Admitted (p : Provider) (subId : String) : Prop :=
  ∃ sub, get p.subs subId = some sub ∧ sub.admitted

lemma openNew_reject (p : Provider) (order payload)
    (sender now) : (p.openNew order payload sender now .reject).1 = p := by
  simp only [openNew]
  split_ifs <;> rfl

lemma rejected_not_held
    (hc : content.subscribe? = some payload) (hasked : PolicyAsked p payload sender registered)
    (hrej : verdict payload.serviceId = .reject) (order now) :
    get (p.handleSubscribe order content sender now registered verdict).1.subs payload.subId =
      none := by
  obtain ⟨hid, hlen, hret, hvalid, hreg, hown⟩ := hasked
  have hid' : ¬(payload.subId = "" ∨ maxSubIdLen < payload.subId.utf8ByteSize) := by
    rintro (h | h)
    · exact hid h
    · omega
  have hreg' : ¬registered payload.serviceId = false := by simpa using hreg
  simp only [handleSubscribe, hc, if_neg hid', if_neg hret, if_neg hvalid, if_neg hreg']
  cases hg : get p.subs payload.subId with
  | some sub =>
    obtain ⟨hs, hv, ht, hm⟩ := hown sub hg
    have hrej' : verdict sub.serviceId = .reject := by rw [← hv, hrej]
    simp only [hs, hv, ht, hm, and_self, if_true, renewHeld, hrej']
    exact endSub_get.trans (if_pos rfl)
  | none =>
    simp only [subscribeNew, hrej]
    split_ifs with hmismatch hrenewed
    · exact hg
    · exact hg
    obtain ⟨hget, -, -⟩ := endEach_spec p order endedReplaced
      (p.idsWhere order (sameTopic payload sender))
    have hnone := hget payload.subId
    rw [hg, ite_self] at hnone
    rw [openNew_reject]
    exact hnone

/-- In every run the table keeps its bounds and its memory of retired ids, a frame concerns its
sender's subscriptions alone, updates go to admitted subscribers only, a retirement takes from
those with most, and a rejected id is served only once admitted anew. -/
theorem subscription_table_kept (interval timeout : ℕ) (ops : List ProviderOp) :
    let p := (runSteps step (new interval timeout) ops).1
    WellKept p ∧ (∀ op sender, op.sender = some sender → (∀ id held, held.subscriber ≠ sender →
          (get p.subs id = some held ↔ get (step p op).1.subs id = some held)) ∧
        (∀ f ∈ (step p op).2, f.recipient = sender) ∧ (step p op).1.topics = p.topics) ∧
      (∀ op, ∀ f ∈ (step p op).2, ∀ u, f.content.wire = .update u →
        ∃ sub, get (step p op).1.subs u.subId = some sub ∧ sub.admitted ∧
          sub.subscriber = f.recipient) ∧
      (∀ op, ∃ es, tableMachine.Runs p es (step p op).1 ∧ tableMachine.Along Fair p es) ∧
      ∀ order content sender now registered verdict payload,
        content.subscribe? = some payload → PolicyAsked p payload sender registered →
        verdict payload.serviceId = .reject →
        let q := (step p (.handleSubscribe order content sender now registered verdict)).1
        ∀ later op, (∃ f ∈ (step (runSteps step q later).1 op).2, ∃ u,
            f.content.wire = .update u ∧ u.subId = payload.subId) →
          ∃ before admitting after, later ++ [op] = before ++ admitting :: after ∧
            ¬Admitted (runSteps step q before).1 payload.subId ∧
            Admitted (step (runSteps step q before).1 admitting).1 payload.subId := by
  intro p
  obtain ⟨hk, hs⟩ : WellKept p ∧ Settled p := reachable_wellKept interval timeout ops
  refine ⟨hk, ?_, ?_, ?_, ?_⟩
  · intro op sender hop
    obtain ⟨hcond, -⟩ := step_conducts hs hk op
    obtain ⟨hsubs, htop⟩ := hcond.isolated
    have hwho (s) (h : op.concerned s) : s = sender := h sender hop
    refine ⟨fun id held hne => hsubs id held fun h => hne (hwho _ h),
      fun f hf => hwho _ (hcond.frames f hf).1, htop ⟨sender ++ "'", fun h => ?_⟩⟩
    have hlen := congrArg String.length (hwho _ h)
    simp at hlen
  · intro op f hf
    exact ((step_conducts hs hk op).1.frames f hf).2
  · intro op
    obtain ⟨es, hruns, -⟩ := (step_conducts hs hk op).1.runs
    exact ⟨es, hruns, fair_runs hruns hk⟩
  intro order content sender now registered verdict payload hc hasked hrej q later op
  rintro ⟨f, hf, u, hu, hid⟩
  have hnot : ¬Admitted q payload.subId := by
    rintro ⟨sub, hg, -⟩
    have hnone : get q.subs payload.subId = none :=
      rejected_not_held hc hasked hrej order now
    rw [hnone] at hg
    cases hg
  -- The state before `op` is reachable, so its update is for an admitted id.
  have hreach : (runSteps step q later).1 = (runSteps step (new interval timeout)
        (ops ++ .handleSubscribe order content sender now registered verdict :: later)).1 := by
    rw [runSteps_append]
    rfl
  obtain ⟨hk', hs'⟩ := reachable_wellKept interval timeout
    (ops ++ .handleSubscribe order content sender now registered verdict :: later)
  rw [← hreach] at hk' hs'
  obtain ⟨sub, hg, hin, -⟩ := ((step_conducts hs' hk' op).1.frames f hf).2 u hu
  have hthen : Admitted (runSteps step q (later ++ [op])).1 payload.subId := by
    rw [runSteps_append]
    exact ⟨sub, hid ▸ hg, hin⟩
  exact runSteps_crossing (P := fun r => Admitted r payload.subId) hnot hthen

end OfflineProtocol.Provider
