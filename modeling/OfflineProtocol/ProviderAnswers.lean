import OfflineProtocol.ProviderCalls

/-! The provider's answers and endings as events of the subscription table: an
answer concerns the subscription answered alone, and ending subscriptions one
by one leaves nothing of them but the memory that they were there. -/
namespace OfflineProtocol.Provider
open KeyedTable EventTrace

section
variable {p : Provider} {order : HashOrder}

def Unreported (sub : ProviderSub) : Prop :=
  sub.admitted ∧ sub.patternFull ∧ sub.patternFullReported = false

lemma reportPatternFull_unreported :
    (sub.admitted && sub.patternFull && !sub.patternFullReported) = true ↔ Unreported sub := by
  simp [Unreported, and_assoc]

lemma reportPatternFull_get (answered id) : get (p.reportPatternFull order answered).1.subs id =
      (get p.subs id).map fun sub =>
        if sub.admitted && sub.patternFull && !sub.patternFullReported then
          { sub with patternFullReported := true }
        else sub :=
  get_mapValues

lemma reportPatternFull_frames (hf : f ∈ (p.reportPatternFull order answered).2.frames) :
    Plain f ∧ ∃ id sub, get p.subs id = some sub ∧ Unreported sub ∧ answered ≠ some id ∧
      f.recipient = sub.subscriber := by
  obtain ⟨o, ho, hf⟩ := SubscriptionOutput.mem_frames_concat.1 hf
  obtain ⟨⟨id, sub⟩, hm, rfl⟩ := List.mem_map.1 ho
  have hg := mem_visit.1 hm
  simp only at hf
  split_ifs at hf with hun hans
  · cases hf
  · rw [List.mem_singleton.1 hf]
    exact ⟨plain_reply rfl, id, sub, hg, reportPatternFull_unreported.1 hun, hans, rfl⟩
  · cases hf

lemma reportPatternFull_settled (order answered)
    (h : PatternsOnly p) : Settled (p.reportPatternFull order answered).1 := by
  intro id sub hg hfull
  rw [reportPatternFull_get, Option.map_eq_some_iff] at hg
  obtain ⟨old, hold, rfl⟩ := hg
  split_ifs at hfull ⊢ with hun
  · exact ⟨h id old hold hfull, fun _ => rfl⟩
  refine ⟨h id old hold hfull, fun hin => ?_⟩
  by_contra hrep
  exact hun (reportPatternFull_unreported.2 ⟨hin, hfull, by simpa using hrep⟩)

lemma reportPatternFull_keeps (order answered) :
    KeepsAdmitted p (p.reportPatternFull order answered).1 := by
  intro id sub hg hin
  refine ⟨_, by rw [reportPatternFull_get, hg]; rfl, ?_⟩
  dsimp only
  split_ifs
  · exact ⟨hin, rfl⟩
  · exact ⟨hin, rfl⟩

lemma reportPatternFull_conducts {order answered}
    (h : ∀ id sub, get p.subs id = some sub → Unreported sub → who sub.subscriber) :
    Conducts who p (p.reportPatternFull order answered).1
      (p.reportPatternFull order answered).2.frames := by
  apply conducts_event (e := .revised (p.reportPatternFull order answered).1.subs)
  · apply canOccur_reviseAll
    intro id sub _
    split_ifs
    · exact ⟨⟨rfl, rfl, rfl, rfl⟩, fun hq hn => hq hn⟩
    · exact .refl sub
  · intro id held hg hn
    rw [reportPatternFull_get, hg, Option.map_some]
    split_ifs with hun
    · exact absurd (h id held hg (reportPatternFull_unreported.1 hun)) hn
    · rfl
  · intro f hf
    obtain ⟨hplain, id, sub, hg, hun, -, hrec⟩ := reportPatternFull_frames hf
    exact ⟨hrec ▸ h id sub hg hun, hplain.addressed⟩

lemma answerExact_conducts (resume resync fresh now)
    (hg : get p.subs subId = some sub) (hin : sub.admitted) :
    let r := p.answerExact subId sub resume resync fresh now
    Conducts (· = sub.subscriber) p r.1 r.2.frames ∧
      ∃ sub', Serves sub sub' ∧ ∀ id, get r.1.subs id = if id = subId then some sub'
        else get p.subs id := by
  unfold answerExact
  cases get p.topics (sub.serviceId, sub.topic) with
  | none =>
    refine ⟨conducts_of_plain (List.forall_mem_singleton.2 ⟨rfl, plain_reply rfl⟩), sub, .refl sub,
      fun id => ?_⟩
    split_ifs with hid
    · rw [hid, hg]
    · rfl
  | some topic =>
    obtain ⟨hserves, hframes⟩ := catchUpTopic_spec subId sub sub.topic topic
      (exactPosition topic resume) resync fresh now
    refine ⟨conducts_event (e := .revised _) (canOccur_revise hg hserves.revision)
      (concerns_revise hg) fun f hf => ?_, _, hserves, fun id => get_insert⟩
    rcases List.mem_cons.1 hf with rfl | hf
    · exact ⟨rfl, (plain_reply rfl).addressed⟩
    exact ⟨(hframes f hf).1, (hframes f hf).addressed get_insert_self
      (hserves.admitted ▸ hin) hserves.terms.subscriber⟩

def OthersTold (p : Provider) (subId : String) : Prop :=
  ∀ id held, id ≠ subId → get p.subs id = some held → ¬Unreported held

lemma Settled.othersTold (h : Settled p) {subId} : OthersTold p subId := by
  intro id held _ hg hun
  have hrep := (h id held hg hun.2.1).2 hun.1
  rw [hun.2.2] at hrep
  cases hrep

lemma answerPattern_conducts (hg : get p.subs subId = some sub) (hin : sub.admitted)
    (hpat : sub.isPattern) (hpo : PatternsOnly p) (htold : OthersTold p subId) :
    let r := p.answerPattern order subId sub resume resync fresh now
    Conducts (· = sub.subscriber) p r.1 r.2.frames ∧ Settled r.1 := by
  unfold answerPattern
  have hfol := serves_followExisting sub p.topics
  generalize sub.followExisting p.topics = sub1 at hfol ⊢
  obtain ⟨hserves, hframes⟩ :=
    catchUpFollowed_spec p subId resume resync fresh now sub1.followed sub1
  rcases hcaught : p.catchUpFollowed subId resume resync fresh now sub1.followed sub1 with
    ⟨sub2, replies, catchUp⟩
  simp only [hcaught] at hserves hframes ⊢
  have hall := hfol.trans hserves
  have hrev : Conducts (· = sub.subscriber) p { p with subs := p.subs.insert subId sub2 }
      (replyFrame sub1.subscriber subId (patternReplyContent subId (asMillis sub1.lease) replies
        sub2.patternFull false) :: catchUp) := by
    refine conducts_event (e := .revised _) (canOccur_revise hg hall.revision)
      (concerns_revise hg) fun f hf => ?_
    rcases List.mem_cons.1 hf with rfl | hf
    · exact ⟨hfol.terms.subscriber, (plain_reply rfl).addressed⟩
    have hsent := (hframes f hf).of_terms hfol.terms
    exact ⟨hsent.1, hsent.addressed get_insert_self (hall.admitted ▸ hin)
      hall.terms.subscriber⟩
  -- After the answer only the subscription answered can be untold.
  have honly : ∀ id held, get (p.subs.insert subId sub2) id = some held → Unreported held →
      held.subscriber = sub.subscriber := by
    intro id held hh hun
    rcases of_get_insert hh with ⟨-, rfl⟩ | ⟨hid, hh⟩
    · exact hall.terms.subscriber
    · exact absurd hun (htold id held hid hh)
  have hpo' : PatternsOnly { p with subs := p.subs.insert subId sub2 } := by
    intro id held hh hfull
    rcases of_get_insert hh with ⟨-, rfl⟩ | ⟨-, hh'⟩
    · rw [hall.terms.isPattern]
      exact hpat
    · exact hpo id held hh' hfull
  exact ⟨hrev.append (reportPatternFull_conducts honly)
    (Or.inr (reportPatternFull_keeps order _)), reportPatternFull_settled order _ hpo'⟩

/-- An answer concerns the subscription answered, and leaves everyone told. -/
lemma answer_conducts (order resume resync fresh)
    (now) (hg : get p.subs subId = some sub) (hin : sub.admitted) (hpo : PatternsOnly p)
    (htold : OthersTold p subId) :
    let r := p.answer order subId resume resync fresh now
    Conducts (· = sub.subscriber) p r.1 r.2.frames ∧ Settled r.1 := by
  simp only [answer, hg]
  split_ifs with hpat
  · exact answerPattern_conducts hg hin hpat hpo htold
  obtain ⟨hcond, sub', hserves, hget⟩ :=
    answerExact_conducts resume resync fresh now hg hin
  refine ⟨hcond, fun id held hh hfull => ?_⟩
  rw [hget] at hh
  split_ifs at hh with hid
  · -- An exact subscription is never out of room.
    cases hh
    rcases hserves.full hfull with hf | hf
    · exact absurd (hpo subId sub hg hf) hpat
    · exact absurd hf hpat
  · refine ⟨hpo id held hh hfull, fun hadm => ?_⟩
    by_contra hrep
    exact htold id held hid hh ⟨hadm, hfull, by simpa using hrep⟩

end

section
variable {p : Provider} {order : HashOrder}

lemma endSub_conducts {id : String} (hg : get p.subs id = some sub) (hw : who sub.subscriber)
    (hf : ∀ f ∈ frames, who f.recipient ∧ Plain f) :
    Conducts who p (p.endSub order id sub) frames :=
  conducts_event (e := .ended id sub (order.counts id)) hg hw
    fun f hm => ⟨(hf f hm).1, (hf f hm).2.addressed⟩

lemma endSub_get {id sub id'} :
    get (p.endSub order id sub).subs id' = if id' = id then none else get p.subs id' :=
  get_erase

lemma get_of_get_endSub {id id' : String}
    (h : get (p.endSub order id sub).subs id' = some held) : get p.subs id' = some held :=
  (of_get_erase h).2

lemma Settled.endSub {id} (h : Settled p) : Settled (p.endSub order id sub) :=
  h.of_subset fun _ _ hg => get_of_get_endSub hg

lemma endEach_spec (p : Provider) (order) (ended) (ids) :
    let r := p.endEach order ended ids
    (∀ id, get r.1.subs id = if id ∈ ids then none else get p.subs id) ∧
      r.1.topics = p.topics ∧ ∀ e ∈ r.1.retired, e ∈ p.retired ∨ (get p.subs e.subId).isSome := by
  induction ids generalizing p with
  | nil => exact ⟨fun id => by simp [endEach], rfl, fun e he => Or.inl he⟩
  | cons id ids ih =>
    unfold endEach
    cases hg : get p.subs id with
    | none =>
      obtain ⟨hget, htop, hmem⟩ := ih p
      refine ⟨fun id' => ?_, htop, hmem⟩
      rw [hget]
      by_cases hid : id' = id
      · simp [hid, hg]
      · simp [hid]
    | some sub =>
      obtain ⟨hget, htop, hmem⟩ := ih (p.endSub order id sub)
      refine ⟨fun id' => ?_, htop, fun e he => ?_⟩
      · rw [hget, endSub_get]
        by_cases hid : id' = id
        · simp [hid]
        · simp [hid]
      rcases hmem e he with hold | hheld
      · rcases mem_retireEntry hold with hold | rfl
        · exact Or.inl hold
        · exact Or.inr (by rw [hg]; rfl)
      right
      rw [endSub_get] at hheld
      split_ifs at hheld with hid
      · cases hheld
      · exact hheld

lemma endEach_conducts (p order) (ended ids)
    (h : ∀ id ∈ ids, ∀ sub, get p.subs id = some sub → who sub.subscriber ∧
      ∀ f ∈ (ended id sub).frames, who f.recipient ∧ Plain f) :
    let r := p.endEach order ended ids
    Conducts who p r.1 r.2.frames ∧ ∀ f ∈ r.2.frames, Plain f := by
  induction ids generalizing p with
  | nil => exact ⟨conducts_nothing, by simp [endEach]⟩
  | cons id ids ih =>
    unfold endEach
    cases hg : get p.subs id with
    | none => exact ih p fun id' hid' => h id' (.tail _ hid')
    | some sub =>
      obtain ⟨hw, hf⟩ := h id (.head _) sub hg
      obtain ⟨hrest, hplain⟩ := ih (p.endSub order id sub) fun id' hid' held hh =>
        h id' (.tail _ hid') held (get_of_get_endSub hh)
      refine ⟨(endSub_conducts hg hw hf).append hrest (Or.inl fun f hm => (hf f hm).2), ?_⟩
      exact List.forall_mem_append.2 ⟨fun f hm => (hf f hm).2, hplain⟩

lemma expireEach_conducts (p order expired) :
    let r := p.expireEach order expired
    Conducts (fun _ => True) p r.1 r.2.frames ∧ (∀ f ∈ r.2.frames, Plain f) ∧
      ∀ id sub, get r.1.subs id = some sub → get p.subs id = some sub := by
  induction expired generalizing p with
  | nil => exact ⟨conducts_nothing, by simp [expireEach], fun _ _ h => h⟩
  | cons e expired ih =>
    obtain ⟨id, reason⟩ := e
    unfold expireEach
    cases hg : get p.subs id with
    | none => exact ih p
    | some sub =>
      split_ifs
      · obtain ⟨hrest, hplain, hsub⟩ := ih (p.endSub order id sub)
        have hhead : ∀ f ∈ [refuse sub.subscriber id .rejected reason], Plain f :=
          List.forall_mem_singleton.2 plain_refuse
        exact ⟨(endSub_conducts hg trivial fun f hf => ⟨trivial, hhead f hf⟩).append hrest
          (Or.inl hhead), List.forall_mem_append.2 ⟨hhead, hplain⟩,
          fun id' held hh => get_of_get_endSub (hsub id' held hh)⟩
      · obtain ⟨hrest, hplain, hsub⟩ := ih { p with subs := p.subs.erase id }
        have hhead : Conducts (fun _ => True) p { p with subs := p.subs.erase id } [] :=
          conducts_event (e := .expired id) trivial (fun _ _ => trivial) (by simp)
        exact ⟨hhead.append hrest (Or.inl (by simp)), hplain,
          fun id' held hh => (of_get_erase (hsub id' held hh)).2⟩

end

end OfflineProtocol.Provider
