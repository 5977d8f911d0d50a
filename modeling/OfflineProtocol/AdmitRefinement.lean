import OfflineProtocol.MeshRefinement

/-! Admission refines the abstract history: of ordinary frames off a link, and
of held frames on their way to a neighbor. -/
namespace OfflineProtocol
open KeyedTable EventTrace MeshRelayGovernor CustodyStore List

namespace MeshRelayGovernor

lemma narrowFirst_split {id} {pending : List PendingRelay}
    (h : narrowFirst id arrival pending = some r) :
    ∃ before p after, pending = before ++ p :: after ∧ p.message.id = id ∧
      r = (before ++ (narrow p arrival).1 :: after, (narrow p arrival).2) := by
  induction pending generalizing r with
  | nil => cases h
  | cons q rest ih =>
    unfold narrowFirst at h
    split_ifs at h with hq
    · exact ⟨[], q, rest, rfl, hq, (Option.some.inj h).symm⟩
    obtain ⟨t, ht, rfl⟩ := Option.map_eq_some_iff.1 h
    obtain ⟨before, p, after, rfl, hp, rfl⟩ := ih ht
    exact ⟨q :: before, p, after, rfl, hp, rfl⟩

lemma narrow_cases (p arrival) : narrow p arrival = (p, []) ∨ ∃ peer, arrival = some peer ∧
      narrow p arrival = (p.hearFrom peer, [.narrowed p peer]) := by
  cases arrival with
  | none => exact .inl rfl
  | some peer =>
    simp only [narrow]
    split_ifs
    · exact .inr ⟨peer, rfl, rfl⟩
    · exact .inl rfl

variable {F : Type*}

lemma prepareHop_id {g : MeshRelayGovernor F}
    (h : g.prepareHop message degree = some forwarded) : forwarded.id = message.id := by
  simp only [prepareHop] at h
  split at h
  · cases h
  split at h
  · cases h
  simp only [← Option.some.inj h, Message.incrementHop]
  split_ifs <;> rfl

end MeshRelayGovernor

namespace MeshEngine
variable {F : Type*} {config : MeshRelayConfig F} {e : MeshEngine F} {retention : ℕ}

lemma arrived_tracks (e : MeshEngine F) (extra message)
    (arrival) : Tracks retention e extra [.arrived message arrival] e extra :=
  tracks_event (fun _ => trivial) rfl rfl (fun _ => rfl) fun _ => rfl

lemma narrow_runs (h : Sound config e)
    (hr : narrowFirst message.id arrival e.mesh.pending = some r) :
    Sound config { e with mesh := { e.mesh with pending := r.1 } } ∧
      Tracks retention e [] (.arrived message arrival :: r.2)
        { e with mesh := { e.mesh with pending := r.1 } } [] := by
  obtain ⟨before, p, after, hpending, hp, rfl⟩ := narrowFirst_split hr
  have hlen : ∀ q, (before ++ q :: after).length = e.mesh.pending.length := by
    intro q
    rw [hpending]
    simp
  refine ⟨⟨h.config_eq, h.retention_eq, h.seen, h.balanced, ?_⟩, ?_⟩
  · simp only [hlen]
    exact h.queue_le
  rcases narrow_cases p arrival with hn | ⟨peer, rfl, hn⟩
  · rw [hn]
    simp only [← hpending]
    exact arrived_tracks e [] message arrival
  rw [hn]
  intro past
  have hmem : p ∈ (e.abs [] (past ++ [.arrived message (some peer)])).waiting := by
    refine Multiset.mem_coe.2 (mem_append_left _ ?_)
    rw [hpending]
    simp
  have hen : (meshMachine retention).enabled
      (e.abs [] (past ++ [.arrived message (some peer)])) (.narrowed p peer) :=
    ⟨hmem, message, hp.symm, by simp [abs]⟩
  refine ((arrived_tracks e [] message (some peer) past).append (Machine.runs_single hen)).to ?_
  refine MeshState.ext rfl ?_ (fun _ => rfl) (fun _ => rfl) (by simp [abs])
  simp only [MeshState.apply_waiting, MeshState.effect, abs, append_nil, hpending]
  have herase : (↑(before ++ p :: after) : Multiset PendingRelay).erase p = ↑(before ++ after) := by
    rw [Multiset.coe_eq_coe.2 perm_middle, ← Multiset.cons_coe, Multiset.erase_cons_head]
  rw [herase, Multiset.cons_coe]
  exact Multiset.coe_eq_coe.2 perm_middle.symm

variable [AirArith F]
omit [AirArith F] in
lemma makeRoom_contains {g : MeshRelayGovernor F} (hr : g.makeRoom message now = some r)
    {id : MessageId} (hid : g.seen.contains now id = false) : r.1.seen.contains now id = false := by
  rcases makeRoom_cases hr with ⟨rfl, -⟩ | ⟨victim, -, rfl⟩
  · exact hid
  rw [Bool.eq_false_iff, ne_eq, RelaySeenCache.contains_iff] at hid ⊢
  rintro ⟨t, ht, hlive⟩
  rw [RelaySeenCache.get_forget] at ht
  split_ifs at ht
  exact hid ⟨t, ht, by simpa using hlive⟩

section
variable (h : Sound config e) (host : HashHost) (message : Message) (arrival : Option PeerId)
  (degree : ℕ)
include h host message arrival degree

lemma admitUnsuppressed_tracks (resend)
    (hfresh : resend = false → e.mesh.seen.contains e.clock message.id = false) :
    let r := e.mesh.admitUnsuppressed host message arrival degree resend e.clock
    Follows config e [] r.2.2 { e with mesh := r.1 } [] := by
  have hsame := chargeArrival_sameQueue host e.mesh arrival e.clock
  have hsound := h.sameQueue hsame
  have hcharge : Tracks config.seen.retention e [] [] _ [] := tracks_sameQueue hsame
  simp only [admitUnsuppressed]
  split
  · exact ⟨hsound, hcharge⟩
  split
  · exact ⟨hsound, hcharge⟩
  rename_i forwarded hhop
  split
  · exact ⟨hsound, hcharge⟩
  rename_i room hroom
  obtain ⟨hsound', htrack⟩ := makeRoom_tracks hsound [] hroom
  have hslot := makeRoom_slot hroom (by rw [hsound.config_eq]; exact hsound.queue_le)
  rw [hsound'.config_eq] at hslot
  have hfresh' : resend = false → room.1.seen.contains e.clock forwarded.id = false := by
    intro hr
    rw [prepareHop_id hhop]
    refine makeRoom_contains hroom ?_
    rw [hsame.seen]
    exact hfresh hr
  obtain ⟨hs, ht⟩ := accept_tracks hsound' []
    ⟨forwarded, arrival, [], e.clock + room.1.jitterFor host message.id degree,
      get message.metadata custodyMetaKey, none⟩ resend rfl rfl hfresh' hslot
  exact ⟨hs, (hcharge.trans htrack).trans ht⟩

lemma admit_tracks : Follows config e [] (e.admitMessage host message arrival degree).2
        (e.admitMessage host message arrival degree).1 [] := by
  simp only [admitMessage, MeshRelayGovernor.admitMessage]
  split
  · split
    · rename_i r hr
      exact narrow_runs h hr
    · exact ⟨h, arrived_tracks e [] message arrival⟩
  rename_i hsup
  obtain ⟨hs, ht⟩ := admitUnsuppressed_tracks h host message arrival degree
    (e.mesh.seen.contains e.clock message.id && e.mesh.isOriginResend message arrival)
    (fun hr => by
      cases hc : e.mesh.seen.contains e.clock message.id with
      | false => rfl
      | true => simp [hc] at hsup hr; simp [hr] at hsup)
  exact ⟨hs, (arrived_tracks e [] message arrival).trans ht⟩

/-- The receive path drops the arrival or offers it for forwarding. -/
lemma tryRelayMessage_tracks :
    let r := e.tryRelayMessage host message arrival degree relayAllowed batteryOk
    Follows config e [] r.2 r.1 [] := by
  unfold tryRelayMessage
  split_ifs
  · exact ⟨h, arrived_tracks e [] message arrival⟩
  · exact ⟨h, arrived_tracks e [] message arrival⟩
  · exact ⟨h, arrived_tracks e [] message arrival⟩
  · exact admit_tracks h host message arrival degree

end

lemma candidatesFor_eq {s : CustodyStore} (h : s.Balanced) (peer) : s.candidatesFor peer =
      s.order.filter fun x => (get s.entries x).any (eligible · peer) := by
  unfold candidatesFor
  generalize s.order = order
  induction order with
  | nil => rfl
  | cons x rest ih =>
    cases hx : get s.entries x with
    | none => simp only [filterMap_cons, hx, ih, filter_cons, Option.any_none,
        Bool.false_eq_true, if_false]
    | some held =>
      simp only [filterMap_cons, hx, filter_cons, Option.any_some]
      split_ifs with hel
      · rw [map_cons, ih, h.keyed x held hx]
      · exact ih

lemma candidatesFor_spec {s : CustodyStore} (h : s.Balanced) (peer) :
    (s.candidatesFor peer).Nodup ∧ ∀ x ∈ s.candidatesFor peer,
      ∃ held, get s.entries x = some held ∧ eligible held peer = true := by
  rw [candidatesFor_eq h]
  refine ⟨h.order_nodup.filter _, fun x hx => ?_⟩
  obtain ⟨held, hheld, hel⟩ := (Option.any_eq_true _ _).1 (mem_filter.1 hx).2
  exact ⟨held, hheld, hel⟩

lemma markQueued_balanced {s : CustodyStore} (h : s.Balanced) {id peer} :
    (s.markQueued id peer).Balanced :=
  h.modify _ (fun _ => rfl) (fun _ => rfl) fun _ => rfl

lemma admitHeld_tracks (h : Sound config e) (host) {id : MessageId}
    (hget : get e.custody.entries id = some held) (hel : eligible held peer = true) :
    let r := e.mesh.admitHeld host held.message peer e.clock
    match r.2.1 with
    | .ok relay =>
      let e' := { e with mesh := r.1, custody := e.custody.markQueued id peer }
      Follows config e [] (r.2.2 ++ [.queuedHeld relay peer]) e' []
    | .error _ =>
      Follows config e [] r.2.2 { e with mesh := r.1 } [] := by
  have hsame := takePeerToken_sameQueue host e.mesh peer e.clock
  have hsound := h.sameQueue hsame
  have hcharge : Tracks config.seen.retention e [] [] _ [] := tracks_sameQueue hsame
  have hid := h.balanced.keyed id held hget
  simp only [admitHeld]
  split_ifs with hrate
  · exact ⟨hsound, hcharge⟩
  cases hroom : (e.mesh.takePeerToken host peer e.clock).1.makeRoom held.message e.clock with
  | none => exact ⟨hsound, hcharge⟩
  | some room =>
    obtain ⟨hsound', htrack⟩ := makeRoom_tracks hsound [] hroom
    have hslot := makeRoom_slot hroom (by rw [hsound.config_eq]; exact hsound.queue_le)
    rw [hsound'.config_eq] at hslot
    simp only
    refine ⟨⟨hsound'.config_eq, hsound'.retention_eq, hsound'.seen,
      markQueued_balanced h.balanced, ?_⟩, (hcharge.trans htrack).trans ?_⟩
    · simp
      omega
    refine tracks_event (fun past => ⟨rfl, rfl, held, ?_, rfl, hel⟩) rfl ?_ (fun _ => rfl) ?_
    · simp only [abs, hid]
      exact hget
    · refine Multiset.coe_eq_coe.2 ?_
      simp only [append_assoc]
      exact perm_middle
    intro y
    simp only [MeshState.effect, MeshState.onHeld, markQueued, get_modify, abs,
      Function.update_apply, hid]

lemma redeliverLoop_tracks (h : Sound config e) {host peer}
    {ids : List MessageId} (hnd : ids.Nodup)
    (hids : ∀ x ∈ ids, ∃ held, get e.custody.entries x = some held ∧ eligible held peer = true) :
    Follows config e [] (redeliverLoop host peer e ids).2
        (redeliverLoop host peer e ids).1 [] := by
  induction ids generalizing e with
  | nil => exact ⟨h, tracks_refl⟩
  | cons id rest ih =>
    obtain ⟨held, hget, hel⟩ := hids id (.head _)
    obtain ⟨hnotin, hnd'⟩ := nodup_cons.1 hnd
    have hrest : ∀ x ∈ rest, ∃ held, get e.custody.entries x = some held ∧
        eligible held peer = true :=
      fun x hx => hids x (.tail _ hx)
    have hone := admitHeld_tracks h host hget hel
    simp only [redeliverLoop, hget]
    cases hr : (e.mesh.admitHeld host held.message peer e.clock).2.1 with
    | ok relay =>
      simp only [hr] at hone ⊢
      -- Noting this frame as queued leaves the candidates behind it as they were.
      obtain ⟨hs, ht⟩ := ih hone.1 hnd' fun x hx => by
        obtain ⟨g, hg, hge⟩ := hrest x hx
        have hne : x ≠ id := fun he => hnotin (he ▸ hx)
        exact ⟨g, by rw [markQueued, get_modify, if_neg hne]; exact hg, hge⟩
      refine ⟨hs, ?_⟩
      have htrans := hone.2.trans ht
      rwa [append_assoc, singleton_append] at htrans
    | error reason =>
      simp only [hr] at hone ⊢
      obtain ⟨hs, ht⟩ := ih hone.1 hnd' hrest
      cases reason with
      | queueFull => exact hone
      | alreadySeen => exact ⟨hs, hone.2.trans ht⟩
      | narrowedByDuplicate => exact ⟨hs, hone.2.trans ht⟩
      | hopLimitReached => exact ⟨hs, hone.2.trans ht⟩
      | peerRateLimited => exact ⟨hs, hone.2.trans ht⟩

lemma redeliverCustodyTo_tracks (h : Sound config e) {host} {peer : PeerId} :
    let r := e.redeliverCustodyTo host peer linked relayAllowed batteryOk
    Follows config e [] r.2 r.1 [] := by
  obtain ⟨hnd, hids⟩ := candidatesFor_spec h.balanced peer
  unfold redeliverCustodyTo
  split_ifs
  · exact ⟨h, tracks_refl⟩
  · exact ⟨h, tracks_refl⟩
  · exact ⟨h, tracks_refl⟩
  · exact redeliverLoop_tracks h hnd hids
  · exact ⟨h, tracks_refl⟩

end MeshEngine

end OfflineProtocol
