import OfflineProtocol.LeafRuns

/-! Whom a leaf device believes and whom it answers. -/
namespace OfflineProtocol
open KeyedTable Interruption List Triple LeafEvent Completes

def Member.Is (m : Member) (address : String) : Prop := m.address = some address ∧ m.derives = true

def ExactPair (mine peer : String) (roster : List Member) : Prop :=
  ∃ a b, roster = [a, b] ∧ (a.Is mine ∧ b.Is peer ∨ a.Is peer ∧ b.Is mine)

/-- No two members of a group share a signature key, so none share an address that
their keys derive to. -/
def DistinctMembers (roster : List Member) : Prop :=
  roster.Pairwise fun a b => a.derives = true → b.derives = true → a.address ≠ b.address

def MemberAt (roster : List Member) (index : ℕ) (peer : String) : Prop :=
  ∃ m, roster.find? (fun m => m.index = index) = some m ∧ m.Is peer

namespace LeafDevice

lemma exactPair_of_check
    (h : isStillAPair me roster peer = true) (hdist : DistinctMembers roster) :
    ExactPair me.address peer roster := by
  obtain ⟨hlength, hmembe⟩ := of_decide_eq_true h
  obtain ⟨a, b, rfl⟩ := length_eq_two.1 hlength
  obtain ⟨hnamed, hder⟩ := hmembe a (.head _)
  obtain ⟨hname', hder'⟩ := hmembe b (mem_cons_of_mem a (mem_singleton_self b))
  have hne : a.address ≠ b.address :=
    rel_of_pairwise_cons hdist (mem_singleton_self b) hder hder'
  refine ⟨a, b, rfl, ?_⟩
  rcases hnamed with ha | ha <;> rcases hname' with hb | hb
  · exact absurd (ha.trans hb.symm) hne
  · exact .inl ⟨⟨ha, hder⟩, hb, hder'⟩
  · exact .inr ⟨⟨ha, hder⟩, hb, hder'⟩
  · exact absurd (ha.trans hb.symm) hne

lemma requireStillAPair_ok
    (h : requireStillAPair me group peer = .ok u) : isStillAPair me group.roster peer = true := by
  unfold requireStillAPair at h
  split_ifs at h with hpair
  exact hpair

lemma bindSenderCredential_ok
    (h : bindSenderCredential group index peer = .ok u) : MemberAt group.roster index peer := by
  unfold bindSenderCredential at h
  split at h
  · rename_i m hfind
    split_ifs at h with his
    exact ⟨m, hfind, his⟩
  · cases h

/-- The peer's key signed the frame for this device. -/
structure SignedFor (me : LeafIdentity) (message : LeafMessage) (p : String) : Prop where
  recipient : message.recipient = me.address
  sender : message.sender = p
  signed : message.signature = .made (some p) .fresh ∨ message.signature = .made (some p) .undated

def Opened.sealer : Opened → Option ℕ
  | .refused => none
  | .application sender _ _ => some sender
  | .commit committer _ => some committer
  | .other sealer => sealer

def Opened.leaves (roster : List Member) : Opened → List Member
  | .commit _ next => next
  | _ => roster

/-- The peer sealed the frame in the group of exactly this device and it, and that
is the group it leaves. -/
structure SealedBy (me : LeafIdentity) (f : Flash) (message : LeafMessage) (opened : Opened)
    (p : String) : Prop where
  recipient : message.recipient = me.address
  sender : message.sender = p
  envelope : ∃ envelope, message.content = .encrypted (some envelope) ∧ envelope.groupId = some p
  group : ∃ entry, get f.states p = some entry ∧ ExactPair me.address p entry.group.roster ∧
    ExactPair me.address p (opened.leaves entry.group.roster) ∧
    ∃ index, opened.sealer = some index ∧ MemberAt (opened.leaves entry.group.roster) index p

def Proven (me : LeafIdentity) (f : Flash) (message : LeafMessage) (opened : Opened)
    (p : String) : Prop :=
  SignedFor me message p ∨ SealedBy me f message opened p

lemma verifyControlFrame_signed (h : verifyControlFrame message now undated = .ok payload) :
    message.signature = .made (some message.sender) .fresh ∨
      message.signature = .made (some message.sender) .undated := by
  unfold verifyControlFrame at h
  split at h
  · cases h
  · cases h
  · cases h
  rename_i signer covered hmade
  by_cases hsigned : signer = some message.sender
  · rw [hmade, hsigned]
    rw [if_pos hsigned] at h
    cases covered with
    | fresh => exact .inl rfl
    | undated => exact .inr rfl
    | neither => cases h
  · rw [if_neg hsigned] at h
    cases h

def LeafEvent.peer : LeafEvent → Option String
  | .peerAdvertised p => some p
  | .sessionEstablished p => some p
  | .sessionReset p => some p
  | .messageReceived p _ => some p
  | .commitApplied p _ => some p
  | .ignored _ => none

def SealedInto (me : LeafIdentity) (peer : String) (key : SealKey) (f : Flash) : Prop :=
  ∃ entry, get f.states peer = some entry ∧ ExactPair me.address peer entry.group.roster ∧
    key.welcome = entry.group.welcome ∧ key.epoch = entry.group.epoch ∧
    key.generation + 1 = entry.group.generation

/-- Everything told and everything answered rests on a proof, or on an id
acknowledged before. -/
structure Accounts (me : LeafIdentity) (f : Flash) (message : LeafMessage) (opened : Opened)
    (handled : Handled) (g : Flash) : Prop where
  told : ∀ e ∈ handled.events, ∀ p ∈ LeafEvent.peer e, Proven me f message opened p
  answers : ∀ frame ∈ handled.outbound, frame.recipient = message.sender ∧
    (Proven me f message opened message.sender ∨ answered f message = true)
  seals : ∀ frame ∈ handled.outbound, ∀ compact key, frame.body = .encrypted compact key →
    SealedInto me frame.recipient key g

/-- A call that handles a frame accounts for all it gives back, and a frame for
another node does nothing. -/
def Accountable (me : LeafIdentity) (f : Flash) (message : LeafMessage) (opened : Opened)
    (result : Outcome LeafError Handled × Part Flash FlashOp) : Prop :=
  (message.recipient ≠ me.address → result.2 = ⟨f, []⟩ ∧
    ∃ handled, result.1 = .returned handled ∧ handled.outbound = []) ∧
  ∀ handled, result.1 = .returned handled → Accounts me f message opened handled result.2.durable

/-- The rosters the library hands over have distinct members. -/
structure LibraryRosters (f : Flash) (message : LeafMessage) (opened : Opened) : Prop where
  stored : ∀ p entry, get f.states p = some entry → DistinctMembers entry.group.roster
  offered : ∀ welcome, offered message = some welcome → DistinctMembers welcome.roster
  committed : ∀ committer roster, opened = .commit committer roster → DistinctMembers roster

variable {me : LeafIdentity} {f : Flash} {message : LeafMessage} {opened : Opened}

lemma Accounts.silent
    (htold : ∀ e ∈ events, ∀ p ∈ LeafEvent.peer e, Proven me f message opened p) :
    Accounts me f message opened ⟨[], events⟩ g where
  told := htold
  answers _ hframe := nomatch hframe
  seals _ hframe := nomatch hframe

lemma Accounts.ignored (reason) : Accounts me f message opened (ignored reason) g := by
  apply Accounts.silent
  simp [LeafEvent.peer]

lemma accounts_bookkeeping :
    Keeps Bookkeeping (fun s => Accounts me f message opened handled s.durable) := by
  intro s op fault hop hs
  refine ⟨hs.told, hs.answers, ?_⟩
  intro frame hframe compact key hbody
  unfold SealedInto
  rw [Part.after_same Flash.states hop.states]
  exact hs.seals frame hframe compact key hbody

section

lemma build_gives (h : Keeps Bookkeeping P) (recipient body) : Triple P (build me recipient body)
      (fun frame s => P s ∧ frame.recipient = recipient ∧ frame.body = body ∧
        me.namesUser recipient = true) fun _ => True := by
  have hcount : Preserves P nextCounter := by
    refine .bind .read fun current => ?_
    exact .bind (onFlash_preserves h (.counter _)) fun _ => .pure
  refine .bind (hcount.within fun _ _ => trivial) fun counter => ?_
  split_ifs with hnames
  · exact .pure fun s hs => ⟨hs, rfl, rfl, hnames⟩
  · exact .raise fun _ _ => trivial

lemma keyPackageFrame_gives (h : Keeps Bookkeeping P) {peer now} :
    Triple P (keyPackageFrame me peer now reference)
      (fun frame s => P s ∧ frame.recipient = peer ∧ ∀ compact key,
        frame.body ≠ .encrypted compact key) fun _ => True := by
  refine .bind ((insert_preserves (h.mono fun _ hop => .keyPackage hop)).within
    fun _ _ => trivial) fun _ => ?_
  refine .bind (build_gives h peer _) fun frame => ?_
  -- What is stored after the frame was built does not change it.
  have hkept : Keeps Bookkeeping (fun s => P s ∧ frame.recipient = peer ∧
      frame.body = .keyPackage reference false ∧ me.namesUser peer = true) :=
    fun s op fault hop hs => ⟨h s op fault hop hs.1, hs.2⟩
  refine bind (Preserves.read.within fun _ _ => trivial) fun record => ?_
  refine .bind ((onFlash_preserves hkept (.storePeer _ _)).within fun _ _ => trivial) fun _ => ?_
  refine .bind ((indexPeer_preserves (hkept.mono fun _ hop => .index hop)).within
    fun _ _ => trivial) fun _ => ?_
  apply Triple.pure
  rintro s ⟨hs, hrec, hbody, -⟩
  exact ⟨hs, hrec, fun compact key => by rw [hbody]; simp⟩

lemma writeToStorage_loaded (group inserts updates) (consumed) :
    Triple P (writeToStorage peer group inserts updates consumed) (fun _ => Loaded peer group)
      fun _ => True := by
  have hbest : Keeps (BesideState peer) (Loaded peer group) :=
    fun _ _ fault hop hs => hs.after hop.states fault
  have hstored (s : Part Flash FlashOp) (marker) :
      Loaded peer group (s.after FlashOp.effect (.storeState peer ⟨marker, group⟩) .done) := by
    refine ⟨⟨marker, group⟩, ?_, rfl⟩
    rw [Part.after_applied rfl]
    exact get_insert_self
  have hspec : Triple (fun _ => True) (writeToStorage peer group inserts updates consumed)
      (fun _ => Loaded peer group) fun _ => True :=
    writeToStorage_beside (fun _ _ _ _ _ => trivial) hbest
      (fun s marker _ => hstored s marker) (fun _ _ _ _ => trivial) (fun _ _ => trivial)
      fun _ _ => trivial
  exact hspec.pre fun _ _ => trivial

lemma sealContent_gives (peer) :
    Triple (fun s => ∀ entry, get s.durable.states peer = some entry →
        DistinctMembers entry.group.roster) (sealContent me peer)
      (fun frame s => frame.recipient = peer ∧ ∃ compact key,
        frame.body = .encrypted compact key ∧ SealedInto me peer key s.durable)
      fun _ => True := by
  refine .bind ((loadGroup_spec me).within fun _ _ => trivial) fun group => ?_
  refine .lift_bind (fun u hcheck => ?_) fun _ _ => trivial
  have hpair (s : Part Flash FlashOp) (hs : (∀ entry, get s.durable.states peer = some entry →
      DistinctMembers entry.group.roster) ∧ Loaded peer group s) :
      ExactPair me.address peer group.roster := by
    obtain ⟨hdist, entry, hentry, rfl⟩ := hs
    exact exactPair_of_check (requireStillAPair_ok hcheck) (hdist entry hentry)
  refine .bind (Q := fun _ s => Loaded peer { group with generation := group.generation + 1 } s ∧
    ExactPair me.address peer group.roster) ?_ fun _ => ?_
  · intro faults s hs
    have hexact := hpair s hs
    refine ((writeToStorage_loaded (P := fun _ => True) _ [] [] none).post
      fun _ s' hs' => ⟨hs', hexact⟩) faults s trivial
  refine bind (Preserves.read.within fun _ _ => trivial) fun record => ?_
  have hkept : Keeps Bookkeeping (fun s =>
      Loaded peer { group with generation := group.generation + 1 } s ∧
        ExactPair me.address peer group.roster) :=
    fun s op fault hop hs => ⟨hs.1.after hop.states fault, hs.2⟩
  refine (build_gives hkept peer _).post ?_
  rintro frame s ⟨⟨⟨entry, hentry, hgroup⟩, hexact⟩, hrec, hbody, -⟩
  refine ⟨hrec, _, _, hbody, entry, hentry, ?_⟩
  rw [hgroup]
  exact ⟨hexact, rfl, rfl, rfl⟩

end

/-- All that a handler gives back goes to the sender and rests on the proof. -/
lemma accounts_of_proven (hproven : Proven me f message opened message.sender)
    (hevent : ∀ e ∈ handled.events, ∀ p ∈ LeafEvent.peer e, p = message.sender)
    (hframes : ∀ frame ∈ handled.outbound, frame.recipient = message.sender)
    (hseals : ∀ frame ∈ handled.outbound, ∀ compact key, frame.body = .encrypted compact key →
      SealedInto me frame.recipient key g) : Accounts me f message opened handled g where
  told e he p hp := by
    rw [hevent e he p hp]
    exact hproven
  answers frame hframe := ⟨hframes frame hframe, .inl hproven⟩
  seals := hseals

lemma onReset_gives :
    Triple (fun _ => True) (onReset me message payload signedUnder record)
      (fun r _ => ∀ e ∈ r.2, ∀ p ∈ LeafEvent.peer e, p = message.sender) fun _ => True := by
  unfold onReset
  split_ifs
  · exact .pure fun _ _ => by simp [LeafEvent.peer]
  · refine .bind .top fun _ => ?_
    refine .bind .top fun _ => ?_
    exact .pure fun _ _ => by simp [LeafEvent.peer]
  · exact .pure fun _ _ => by simp [LeafEvent.peer]
  · exact .pure nofun

abbrev Attested (me : LeafIdentity) (f : Flash) (message : LeafMessage) (opened : Opened)
    (handled : Handled) (s : Part Flash FlashOp) : Prop :=
  Accounts me f message opened handled s.durable ∧ Proven me f message opened message.sender

section
variable (hmine : message.recipient = me.address)
include hmine

lemma onKeyPackage_gives {body now reference} :
    Triple (fun _ => True) (onKeyPackage me message body now reference)
      (Attested me f message opened) fun _ => True := by
  refine .lift_bind (fun signedUnder hver => ?_) fun _ _ => trivial
  have hproven : Proven me f message opened message.sender :=
    .inl ⟨hmine, rfl, verifyControlFrame_signed hver⟩
  cases body with
  | none => exact .raise fun _ _ => trivial
  | some payload =>
    by_cases huser : payload.userId = message.sender
    · simp only [if_pos huser]
      refine .bind .top fun _ => ?_
      refine .bind .top fun held => ?_
      refine .bind onReset_gives fun answer => ?_
      obtain ⟨record, events⟩ := answer
      have hevent (h : ∀ e ∈ events, ∀ p ∈ LeafEvent.peer e, p = message.sender) :
          ∀ e ∈ events ++ [.peerAdvertised message.sender], ∀ p ∈ LeafEvent.peer e,
            p = message.sender :=
        forall_mem_append.2 ⟨h, by simp [LeafEvent.peer]⟩
      refine .bind ((onFlash_preserves (fun _ _ _ _ => id) (.storePeer _ _ :
        Bookkeeping _)).within fun _ _ => trivial) fun _ => ?_
      split_ifs
      · apply Triple.pure
        intro s hs
        refine ⟨.silent fun e he p hp => ?_, hproven⟩
        rw [hevent hs e he p hp]
        exact hproven
      refine .bind (keyPackageFrame_gives (fun _ _ _ _ => id)) fun frame => ?_
      apply Triple.pure
      rintro s ⟨hs, hrec, hbody⟩
      exact ⟨accounts_of_proven hproven (hevent hs) (forall_mem_singleton.2 hrec)
        (forall_mem_singleton.2 fun _ _ h => absurd h (hbody _ _)), hproven⟩
    · simp only [if_neg huser]
      exact .raise fun _ _ => trivial

omit hmine in
lemma joinGroup_roster
    (h : joinGroup f welcome = .ok (group, consumed)) : group.roster = welcome.roster := by
  unfold joinGroup at h
  split at h
  · split_ifs at h
    cases h
    rfl
  · cases h

lemma onWelcome_gives (hc : message.content = .welcome body)
    (hrosters : ∀ welcome, offered message = some welcome → DistinctMembers welcome.roster) {now} :
    Triple (fun _ => True) (onWelcome me message body now)
      (Attested me f message opened) fun _ => True := by
  refine onWelcome_spec me (fun _ _ => trivial) fun held welcome group consumed h => ?_
  obtain ⟨payload, hver⟩ := h.verified
  have hproven : Proven me f message opened message.sender :=
    .inl ⟨hmine, rfl, verifyControlFrame_signed hver⟩
  have hdist : DistinctMembers group.roster := by
    rw [joinGroup_roster h.joined]
    exact hrosters welcome (h.offered_by hc)
  -- The group joined is the one the confirmation is sealed into.
  have hkept : Keeps Bookkeeping (Loaded message.sender group) :=
    fun _ _ fault hop hs => hs.after hop.states fault
  refine .bind ((writeToStorage_loaded group [] [] (some consumed)).pre (fun _ _ => trivial)) fun _ => ?_
  refine .bind ((indexPeer_preserves (hkept.mono fun _ hop => .index hop)).within
    fun _ _ => trivial) fun _ => ?_
  refine .bind ((sealContent_gives message.sender).pre ?_) fun confirm => ?_
  · rintro s ⟨entry, hentry, rfl⟩ held hheld
    rw [hentry] at hheld
    cases hheld
    exact hdist
  apply Triple.pure
  rintro s ⟨hrec, compact, key, hbody, hsealed⟩
  refine ⟨accounts_of_proven hproven (by simp [LeafEvent.peer]) (forall_mem_singleton.2 hrec)
    (forall_mem_singleton.2 fun compact' key' hbody' => ?_), hproven⟩
  rw [hbody] at hbody'
  cases hbody'
  rw [hrec]
  exact hsealed

lemma onProbe_gives {now} : Triple (fun _ => True) (onProbe me message now)
      (Attested me f message opened) fun _ => True := by
  refine .lift_bind (fun _ hver => ?_) fun _ _ => trivial
  have hproven : Proven me f message opened message.sender :=
    .inl ⟨hmine, rfl, verifyControlFrame_signed hver⟩
  refine .bind .top fun _ => ?_
  refine .bind .top fun entry => ?_
  cases entry with
  | none =>
    exact .pure fun _ _ => ⟨.ignored _, hproven⟩
  | some entry =>
    refine .bind .top fun _ => ?_
    refine .bind (build_gives (fun _ _ _ _ => id) _ _) fun ack => ?_
    apply Triple.pure
    rintro s ⟨-, hrec, hbody, -⟩
    exact ⟨accounts_of_proven hproven nofun (forall_mem_singleton.2 hrec)
      (forall_mem_singleton.2 (by simp [hbody])), hproven⟩

end

/-- A sealed frame of the pair opens to something whose author nothing proves. -/
structure Unbound (me : LeafIdentity) (f : Flash) (message : LeafMessage) (opened : Opened) :
    Prop where
  named : me.namesGroup message.sender = true
  envelope : ∃ envelope, message.content = .encrypted (some envelope) ∧
    envelope.senderId = message.sender ∧ envelope.groupId = some message.sender ∧
    envelope.decodes = true
  group : ∃ entry, get f.states message.sender = some entry ∧
    isStillAPair me entry.group.roster message.sender = true
  other : ∃ sealer, opened = .other sealer
  unproven : ¬Proven me f message opened message.sender

lemma opened_proven {next} (hmine : message.recipient = me.address)
    (hc : message.content = .encrypted (some envelope))
    (hsend : envelope.senderId = message.sender) (hgroup : envelope.groupId = some message.sender)
    (hdec : envelope.decodes = true) (hnamed : me.namesGroup message.sender = true)
    (hrosters : LibraryRosters f message opened) (hentry : get f.states message.sender = some entry)
    (hpair : isStillAPair me entry.group.roster message.sender = true)
    (hok : processIncoming f message.sender entry.group opened = .ok (next, inserts, updates))
    (hevent : openedEvents me message.sender next opened = .ok events) :
    (∀ e ∈ events, ∀ p ∈ LeafEvent.peer e, p = message.sender ∧
        Proven me f message opened message.sender) ∧
      (Proven me f message opened message.sender ∨ Unbound me f message opened) := by
  have hexact := exactPair_of_check hpair (hrosters.stored _ entry hentry)
  cases opened with
  | refused => cases hok
  | application sender text prior =>
    have hnext : next = entry.group := by
      cases prior with
      | none =>
        cases hok
        rfl
      | some prior =>
        simp only [processIncoming] at hok
        split_ifs at hok
        cases hok
        rfl
    simp only [openedEvents] at hevent
    cases hbind : bindSenderCredential next sender message.sender with
    | error e =>
      rw [hbind] at hevent
      cases hevent
    | ok u =>
      rw [hbind] at hevent
      have hmember := bindSenderCredential_ok hbind
      rw [hnext] at hmember
      have hproven : Proven me f message (.application sender text prior) message.sender :=
        .inr ⟨hmine, rfl, ⟨envelope, hc, hgroup⟩, entry, hentry, hexact, hexact, sender, rfl,
          hmember⟩
      refine ⟨?_, .inl hproven⟩
      cases hevent
      refine forall_mem_singleton.2 fun p hp => ⟨?_, hproven⟩
      split_ifs at hp
      · exact (Option.some.inj hp).symm
      · exact (Option.some.inj hp).symm
  | commit committer roster =>
    have hnext : next.roster = roster := by
      simp only [processIncoming] at hok
      split_ifs at hok
      cases hok
      rfl
    simp only [openedEvents] at hevent
    cases hstill : requireStillAPair me next message.sender with
    | error e =>
      rw [hstill] at hevent
      cases hevent
    | ok u =>
      cases hbind : bindSenderCredential next committer message.sender with
      | error e =>
        rw [hstill, hbind] at hevent
        cases hevent
      | ok v =>
        rw [hstill, hbind] at hevent
        have hmember := bindSenderCredential_ok hbind
        have hafter := requireStillAPair_ok hstill
        rw [hnext] at hmember hafter
        have hexact' := exactPair_of_check hafter (hrosters.committed committer roster rfl)
        have hproven : Proven me f message (.commit committer roster) message.sender :=
          .inr ⟨hmine, rfl, ⟨envelope, hc, hgroup⟩, entry, hentry, hexact, hexact', committer,
            rfl, hmember⟩
        refine ⟨?_, .inl hproven⟩
        cases hevent
        exact forall_mem_singleton.2 fun p hp => ⟨(Option.some.inj hp).symm, hproven⟩
  | other sealer =>
    cases hevent
    refine ⟨by simp [LeafEvent.peer], ?_⟩
    by_cases hproven : Proven me f message (.other sealer) message.sender
    · exact .inl hproven
    exact .inr ⟨hnamed, ⟨envelope, hc, hsend, hgroup, hdec⟩, ⟨entry, hentry, hpair⟩,
      ⟨sealer, rfl⟩, hproven⟩

lemma groupId_ok (h : groupId me peer = .ok u) : me.namesGroup peer = true := by
  unfold groupId at h
  split_ifs at h with hnamed
  exact hnamed

lemma onEncrypted_gives (hmine : message.recipient = me.address)
    (hc : message.content = .encrypted body) (hrosters : LibraryRosters f message opened) :
    Triple (fun s => s.durable = f) (onEncrypted me message body opened)
      (fun handled s => Accounts me f message opened handled s.durable ∧
        (Proven me f message opened message.sender ∨
          Unbound me f message opened ∧ s.durable.peers = f.peers)) fun _ => True := by
  refine onEncrypted_spec me body opened (fun _ _ => trivial) fun held group next inserts updates h
    =>
    ?_
  obtain ⟨envelope, rfl, hsend, hgroup, hdec⟩ := h.addressed
  -- Persisting the group touches no peer record.
  have hpeers : Keeps (TalkOp message.sender) (fun s => s.durable.peers = f.peers) := by
    intro s op fault hop hs
    unfold Part.after
    split_ifs
    · cases hop with
      | beside h => cases h with
        | keyPackage h => cases h <;> exact hs
        | _ => exact hs
      | index h => cases h; exact hs
      | _ => exact hs
    · exact hs
  intro faults s hs
  obtain ⟨⟨hdur, entry, hentry, rfl⟩, rfl⟩ := hs
  rw [hdur] at hentry h
  have hrest : Triple (fun s => s.durable.peers = f.peers) (do
        writeToStorage message.sender next inserts updates none
        let events ← lift (openedEvents me message.sender next opened)
        pure ⟨[], events⟩)
      (fun handled s => Accounts me f message opened handled s.durable ∧
        (Proven me f message opened message.sender ∨
          Unbound me f message opened ∧ s.durable.peers = f.peers)) fun _ => True := by
    refine .bind ((writeToStorage_preserves hpeers).within fun _ _ => trivial) fun _ => ?_
    refine .lift_bind (fun events hevent => ?_) fun _ _ => trivial
    apply Triple.pure
    intro s hs
    obtain ⟨htold, hproven⟩ := opened_proven hmine hc hsend hgroup hdec
      (groupId_ok h.named) hrosters hentry (requireStillAPair_ok h.pair) h.processed hevent
    refine ⟨.silent ?_, ?_⟩
    · intro e he p hp
      obtain ⟨rfl, h⟩ := htold e he p hp
      exact h
    · exact hproven.imp_right fun h => ⟨h, hs⟩
  exact hrest faults s (congrArg Flash.peers hdur)

/-- A frame nothing proves is acknowledged: it opens to something that is not bound
to its sender, and its sender is a known peer that asks for an answer. -/
structure AcksUnproven (me : LeafIdentity) (f : Flash) (message : LeafMessage) (opened : Opened) :
    Prop where
  mine : message.recipient = me.address
  fresh : answered f message = false
  asks : message.requiresAck = true
  known : (get f.peers message.sender).isSome = true
  named : me.namesUser message.sender = true
  unbound : Unbound me f message opened

abbrev Vouched (me : LeafIdentity) (f : Flash) (message : LeafMessage) (opened : Opened)
    (handled : Handled) (claimed : Bool) (s : Part Flash FlashOp) : Prop :=
  Accounts me f message opened handled s.durable ∧
    (claimed = true → Proven me f message opened message.sender ∨
      Unbound me f message opened ∧ s.durable.peers = f.peers)

lemma dispatch_gives (hmine : message.recipient = me.address)
    (hrosters : LibraryRosters f message opened) {now reference} :
    Triple (fun s => s.durable = f) (dispatch me message now reference opened)
      (fun r => Vouched me f message opened r.1 r.2) fun _ => True := by
  have hsign {m : LeafM Handled} (hm : Triple (fun _ => True) m
      (Attested me f message opened) fun _ => True) :
      Triple (fun s => s.durable = f) (do let handled ← m; pure (handled, true))
        (fun r => Vouched me f message opened r.1 r.2) fun _ => True :=
    .bind (hm.pre (fun _ _ => trivial)) fun handled =>
      .pure fun s hs => ⟨hs.1, fun _ => .inl hs.2⟩
  have hclaim (reason) :
      Triple (fun s => s.durable = f) (pure (ignored reason, false) : LeafM (Handled × Bool))
        (fun r => Vouched me f message opened r.1 r.2) fun _ => True := by
    exact .pure fun _ _ => ⟨.ignored _, nofun⟩
  unfold dispatch
  cases hc : message.content with
  | keyPackage body => exact hsign (onKeyPackage_gives hmine)
  | welcome body => exact hsign (onWelcome_gives hmine hc hrosters.offered)
  | encrypted body =>
    refine .bind (onEncrypted_gives hmine hc hrosters) fun handled => ?_
    exact .pure fun s hs => ⟨hs.1, fun _ => hs.2⟩
  | sessionConfirmProbe => exact hsign (onProbe_gives hmine)
  | sessionConfirmAck => exact hclaim _
  | unprefixed => exact hclaim _

structure Acknowledges (me : LeafIdentity) (message : LeafMessage) (ack : LeafFrame) : Prop where
  recipient : ack.recipient = message.sender
  body : ack.body = .acknowledge message.id
  asks : message.requiresAck = true
  named : me.namesUser message.sender = true

lemma acknowledge_gives (h : Keeps Bookkeeping P)
    (hS : ∀ s, S s → P s) (hK : ∀ s, S s → (get s.durable.peers message.sender).isSome = true → K) :
    Triple S (acknowledge me message)
      (fun answer s => P s ∧ ∀ ack, answer = some ack → Acknowledges me message ack ∧ K) P := by
  have hnone (s) (hs : P s) :
      P s ∧ ∀ ack, (none : Option LeafFrame) = some ack → Acknowledges me message ack ∧ K :=
    ⟨hs, nofun⟩
  unfold acknowledge
  split_ifs with hasks
  · have hread : Triple S (read fun g => get g.peers message.sender : LeafM (Option PeerRecord))
        (fun known s => P s ∧ (known.isSome = true → K)) P :=
      .read fun s hs => ⟨hS s hs, hK s hs⟩
    refine .bind hread fun known => ?_
    cases known with
    | none => exact .pure fun s hs => hnone s hs.1
    | some record =>
      refine .given fun hk => ?_
      have hframe : Triple P (acknowledgeFrame me message)
          (fun frame s => P s ∧ Acknowledges me message frame) P := by
        have hgives : Triple (fun _ => True) (acknowledgeFrame me message)
            (fun frame _ => Acknowledges me message frame) fun _ => True :=
          (build_gives (fun _ _ _ _ => id) _ _).mono (fun _ _ => trivial)
            (fun _ _ hs => ⟨hs.2.1, hs.2.2.1, hasks, hs.2.2.2⟩) fun _ => id
        have hkeep : Preserves P (acknowledgeFrame me message) := Bookkeeping.build h
        exact (both hkeep hgives).mono (fun s hs => ⟨hs, trivial⟩) (fun _ _ => id) fun s hs => hs.1
      refine .bind hframe fun frame => ?_
      refine .given fun hack => ?_
      refine .bind (onFlash_preserves h (.storePeer _ _)) fun _ => ?_
      apply Triple.pure
      intro s hs
      refine ⟨hs, fun ack hsome => ?_⟩
      cases hsome
      exact ⟨hack, hk rfl⟩
  · exact .pure fun s hs => hnone s (hS s hs)

lemma answer_gives (hmine : message.recipient = me.address) (hfresh : answered f message = false)
    (hnot : ¬AcksUnproven me f message opened) :
    Triple (Vouched me f message opened handled true) (attempt (acknowledge me message))
      (fun answer s => Accounts me f message opened handled s.durable ∧
        ∀ ack, answer = .ok (some ack) → Acknowledges me message ack ∧
          Proven me f message opened message.sender) fun _ => True := by
  have hanswer : Triple (Vouched me f message opened handled true) (acknowledge me message)
      (fun answer s => Accounts me f message opened handled s.durable ∧
        ∀ ack, answer = some ack → Acknowledges me message ack ∧
          (message.requiresAck = true → me.namesUser message.sender = true →
            Proven me f message opened message.sender))
      fun s => Accounts me f message opened handled s.durable := by
    apply acknowledge_gives accounts_bookkeeping fun s hs => hs.1
    rintro s ⟨-, hproven⟩ hknown hasks hnamed
    -- A frame that proves nothing is one that does not come here.
    rcases hproven rfl with h | ⟨hunbn, hpeers⟩
    · exact h
    rw [hpeers] at hknown
    exact absurd ⟨hmine, hfresh, hasks, hknown, hnamed, hunbn⟩ hnot
  have hok : Triple (Vouched me f message opened handled true) (acknowledge me message)
      (fun answer s => Accounts me f message opened handled s.durable ∧
        ∀ ack, (Except.ok answer : Except LeafError (Option LeafFrame)) = .ok (some ack) →
          Acknowledges me message ack ∧ Proven me f message opened message.sender)
      fun s => Accounts me f message opened handled s.durable := by
    refine hanswer.post ?_
    intro answer s hs
    refine ⟨hs.1, fun ack hack => ?_⟩
    obtain ⟨hack', hproven⟩ := hs.2 ack (Except.ok.inj hack)
    exact ⟨hack', hproven hack'.asks hack'.named⟩
  refine (Triple.attempt hok ?_).within fun _ _ => trivial
  exact fun e s hs => ⟨hs, nofun⟩

/-- Everything handling a frame gives back is accounted for, unless it acknowledges
a frame nothing proves. -/
lemma handle_gives (hrosters : LibraryRosters f message opened) (now reference)
    (hnot : ¬AcksUnproven me f message opened) :
    Triple (fun s => s.durable = f) (handle me message now reference opened)
      (fun handled s => Accounts me f message opened handled s.durable) fun _ => True := by
  refine .bind (readAll_spec.within fun _ _ => trivial) fun held => ?_
  have hheld {m : LeafM Handled} (hm : held = f → Triple (fun s => s.durable = f) m
      (fun handled s => Accounts me f message opened handled s.durable) fun _ => True) :
      Triple (fun s => s.durable = f ∧ held = s.durable) m
        (fun handled s => Accounts me f message opened handled s.durable) fun _ => True :=
    fun faults s hs => hm (hs.2.trans hs.1) faults s hs.1
  apply hheld
  intro hsame
  by_cases hmine : message.recipient = me.address
  swap
  · rw [if_pos hmine]
    exact .pure fun _ _ => .ignored _
  rw [if_neg (not_not.2 hmine), hsame]
  by_cases hanswered : answered f message = true
  · rw [if_pos hanswered]
    refine .bind ((build_gives (P := fun _ => True) (fun _ _ _ _ _ => trivial) _ _).pre
      fun _ _ => trivial) fun ack => ?_
    apply Triple.pure
    rintro s ⟨-, hrec, hbody, -⟩
    exact ⟨by simp [LeafEvent.peer], forall_mem_singleton.2 ⟨hrec, .inr hanswered⟩,
      forall_mem_singleton.2 (by simp [hbody])⟩
  rw [if_neg hanswered]
  refine .bind (dispatch_gives hmine hrosters) fun r => ?_
  obtain ⟨handled, proven⟩ := r
  cases proven with
  | false => exact .pure fun s hs => hs.1
  | true =>
    refine .bind (answer_gives hmine (by simpa using hanswered) hnot) fun answer => ?_
    match answer with
    | .error e =>
      apply Triple.pure
      rintro s ⟨hs, -⟩
      exact ⟨forall_mem_append.2 ⟨hs.told, by simp [LeafEvent.peer]⟩, hs.answers, hs.seals⟩
    | .ok none => exact .pure fun s hs => hs.1
    | .ok (some ack) =>
      apply Triple.pure
      rintro s ⟨hs, hack⟩
      obtain ⟨hack, hproven⟩ := hack ack rfl
      refine ⟨hs.told, forall_mem_append.2 ⟨hs.answers, ?_⟩, forall_mem_append.2 ⟨hs.seals, ?_⟩⟩
      · exact forall_mem_singleton.2 ⟨hack.recipient, .inl hproven⟩
      · exact forall_mem_singleton.2 (by simp [hack.body])

lemma completes_build (h : ∀ n, ∀ s, P s → P (s.after FlashOp.effect (.storeCounter n) .done))
    (hnamed : me.namesUser recipient = true) :
    Completes P (build me recipient body) (fun frame s => P s ∧ frame.recipient = recipient) := by
  have hcount : Completes P nextCounter (fun _ => P) := by
    refine .bind (Q := fun _ => P) (.read fun s hs => hs) fun current => ?_
    refine .bind (Q := fun _ => P) (.operate (h _)) fun _ => ?_
    exact .pure fun s hs => hs
  refine .bind hcount fun counter => ?_
  rw [if_pos hnamed]
  exact .pure fun s hs => ⟨hs, rfl⟩

lemma completes_rewrite :
    Completes (fun s => s.durable.peers = f.peers) (writeToStorage peer group [] [] none)
      (fun _ s => s.durable.peers = f.peers) := by
  have hwrite : Completes (fun s => s.durable.peers = f.peers)
      (GroupStateAdapter.write peer group [] []) (fun _ s => s.durable.peers = f.peers) := by
    refine .bind (Q := fun _ s => s.durable.peers = f.peers)
      (.read fun s hs => hs) fun previous => ?_
    have hsame : GroupStateAdapter.advance previous ([] ++ []) = previous := rfl
    simp only [hsame, if_true]
    refine .bind (Q := fun _ s => s.durable.peers = f.peers) (.pure fun s hs => hs) fun _ => ?_
    refine .bind (Q := fun _ s => s.durable.peers = f.peers) (.operate fun s hs => hs) fun _ => ?_
    exact .pure fun s hs => hs
  exact .bind hwrite fun _ => .pure fun s hs => hs

lemma completes_onEncrypted (h : Unbound me f message opened) :
    ∃ body, message.content = .encrypted body ∧
      Completes (fun s => s.durable = f) (onEncrypted me message body opened)
        (fun _ s => s.durable.peers = f.peers) := by
  obtain ⟨envelope, hc, hsend, hgroup, hdec⟩ := h.envelope
  obtain ⟨entry, hentry, hpair⟩ := h.group
  obtain ⟨sealer, rfl⟩ := h.other
  refine ⟨some envelope, hc, ?_⟩
  have hid : groupId me message.sender = .ok () := by
    unfold groupId
    rw [if_pos h.named]
    rfl
  have hload : Completes (fun s => s.durable = f) (loadGroup me message.sender)
      (fun group s => s.durable = f ∧ group = entry.group) := by
    refine .bind (Q := fun _ s => s.durable = f) (.lift hid fun s hs => hs) fun _ => ?_
    have hread : Completes (fun s => s.durable = f)
        (read fun g => get g.states message.sender : LeafM (Option StateEntry))
        (fun held s => s.durable = f ∧ held = some entry) :=
      .read fun s hs => ⟨hs, by rw [hs]; exact hentry⟩
    refine .bind hread fun held => ?_
    intro s hs
    obtain ⟨hs, rfl⟩ := hs
    exact ⟨entry.group, s, rfl, hs, rfl⟩
  unfold onEncrypted
  simp only [if_pos hsend, if_pos hgroup, if_pos hdec]
  refine .bind (Q := fun _ s => s.durable = f) (.lift hid fun s hs => hs) fun _ => ?_
  refine .bind hload fun group => ?_
  intro s hs
  obtain ⟨hs, rfl⟩ := hs
  have hstill : requireStillAPair me entry.group message.sender = .ok () := by
    unfold requireStillAPair
    rw [if_pos hpair]
    rfl
  refine bind (Q := fun _ s => s.durable = f) (.lift hstill fun s hs => hs) (fun _ => ?_) s hs
  refine .bind (Q := fun _ s => s.durable.peers = f.peers)
    (.read fun s hs => congrArg Flash.peers hs) fun g => ?_
  refine .bind (Q := fun r s => s.durable.peers = f.peers ∧
    r = (entry.group, ([], []))) (.lift rfl fun s hs => ⟨hs, rfl⟩) fun r => ?_
  intro s hs
  obtain ⟨hs, rfl⟩ := hs
  refine bind completes_rewrite (fun _ => ?_) s hs
  exact bind (Q := fun _ s => s.durable.peers = f.peers)
    (.lift rfl fun s hs => hs) fun _ => .pure fun s hs => hs

lemma completes_handle (h : AcksUnproven me f message opened) (now reference) :
    Completes (fun s => s.durable = f) (handle me message now reference opened)
      (fun handled _ => ∃ frame, frame ∈ handled.outbound) := by
  obtain ⟨body, hc, hencrypted⟩ := completes_onEncrypted h.unbound
  have hdisp : Completes (fun s => s.durable = f) (dispatch me message now reference opened)
      (fun r s => s.durable.peers = f.peers ∧ r.2 = true) := by
    unfold dispatch
    rw [hc]
    exact .bind hencrypted fun _ => .pure fun s hs => ⟨hs, rfl⟩
  have hack : Completes (fun s => s.durable.peers = f.peers) (acknowledge me message)
      (fun answer _ => ∃ ack, answer = some ack) := by
    unfold acknowledge
    rw [if_pos h.asks]
    obtain ⟨record, hrecord⟩ := Option.isSome_iff_exists.1 h.known
    have hread : Completes (fun s => s.durable.peers = f.peers)
        (read fun g => get g.peers message.sender : LeafM (Option PeerRecord))
        (fun known _ => known = some record) :=
      .read fun s hs => by rw [hs]; exact hrecord
    refine .bind hread fun known => ?_
    intro s hs
    subst hs
    refine bind (P := fun _ => True) (completes_build (fun _ _ _ => trivial) h.named)
      (fun ack => ?_) s trivial
    refine bind (Q := fun _ _ => True) (Completes.operate fun s _ => trivial) fun _ => ?_
    exact .pure fun s _ => ⟨ack, rfl⟩
  unfold handle
  refine .bind (Q := fun held s => s.durable = f ∧ held = f)
    (.read fun s hs => ⟨hs, hs⟩) fun held => ?_
  intro s hs
  obtain ⟨hs, rfl⟩ := hs
  rw [if_neg (not_not.2 h.mine), if_neg (by rw [h.fresh]; simp)]
  refine bind hdisp (fun r => ?_) s hs
  obtain ⟨handled, proven⟩ := r
  intro s hs
  obtain ⟨hs, hproven⟩ := hs
  have hproven' : proven = true := hproven
  subst hproven'
  have hattempt : Completes (fun s => s.durable.peers = held.peers)
      (attempt (acknowledge me message)) (fun answer _ => ∃ ack, answer = .ok (some ack)) := by
    apply Completes.attempt
    intro s hs
    obtain ⟨answer, s', hrun, ack, rfl⟩ := hack s hs
    exact ⟨some ack, s', hrun, ack, rfl⟩
  refine bind hattempt (fun answer => ?_) s hs
  · rintro s ⟨ack, rfl⟩
    exact ⟨{ handled with outbound := handled.outbound ++ [ack] }, s, rfl, ack,
      mem_append_right _ (mem_singleton_self ack)⟩

/-- What is sealed for a caller is sealed into the pair's group. -/
def SealsIntoPair (me : LeafIdentity) (f : Flash) : Prop :=
  ∀ peer faults frame, (sealContent me peer faults ⟨f, []⟩).1 = .returned frame →
    frame.recipient = peer ∧ ∃ compact key, frame.body = .encrypted compact key ∧
      SealedInto me peer key (sealContent me peer faults ⟨f, []⟩).2.durable

lemma returned_of_triple {α : Type} {m : LeafM α} {Q} (h : Triple P m Q R) (hs : P s)
    {a : α} (hr : (m faults s).1 = .returned a) : Q a (m faults s).2 := by
  have hm := h faults s hs
  cases hrun : m faults s with
  | mk out s' =>
    rw [hrun] at hm hr
    cases hr
    exact hm

lemma handle_elsewhere (helse : message.recipient ≠ me.address) (now reference) (faults) :
    handle me message now reference opened faults ⟨f, []⟩ =
      (.returned (ignored "frame is addressed to another node"), ⟨f, []⟩) := by
  have hhand : handle me message now reference opened =
      (read id >>= fun _ => pure (ignored "frame is addressed to another node")) := by
    unfold handle
    simp only [if_pos helse]
  rw [hhand]
  rfl

/-- However its operations on flash end, a call tells and answers only what is
proven and seals into the pair's group only, if and only if the frame is not one of
a kind that nothing binds to the peer it names and that peer is acknowledged for. -/
theorem handle_accountable_iff (me : LeafIdentity) (f : Flash) (message : LeafMessage) (now : ℕ)
    (reference : String) (opened : Opened) (hrosters : LibraryRosters f message opened) :
    ((∀ faults, Accountable me f message opened
        (handle me message now reference opened faults ⟨f, []⟩)) ∧ SealsIntoPair me f) ↔
      ¬AcksUnproven me f message opened := by
  constructor
  · rintro ⟨hall, -⟩ hacks
    obtain ⟨handled, s, hrun, frame, hframe⟩ :=
      completes_handle hacks now reference ⟨f, []⟩ rfl
    have haccount := (hall fun _ => .done).2 handled (by rw [hrun])
    rcases (haccount.answers frame hframe).2 with hproven | hanswered
    · exact hacks.unbound.unproven hproven
    rw [hacks.fresh] at hanswered
    cases hanswered
  · intro hnot
    refine ⟨fun faults => ⟨fun helse => ?_, fun handled hr => ?_⟩, fun peer faults frame hr => ?_⟩
    · rw [handle_elsewhere helse]
      exact ⟨rfl, _, rfl, rfl⟩
    · exact returned_of_triple (handle_gives hrosters now reference hnot) rfl hr
    exact returned_of_triple (sealContent_gives peer)
      (fun entry hentry => hrosters.stored peer entry hentry) hr

def doorIdentity : LeafIdentity := ⟨"d", fun _ => true, fun _ => true⟩

def doorRoster : List Member := [⟨0, some "p", true⟩, ⟨1, some "d", true⟩]

def pairedFlash : Flash :=
  { Flash.empty with
    states := (∅ : Table String StateEntry).insert "p"
      ⟨none, ⟨⟨"w", ["r"], some "p", 1, doorRoster, true⟩, 1, 1, doorRoster⟩⟩
    peers := (∅ : Table String PeerRecord).insert "p" .new }

/-- A sealed frame in the name of `p`, with no signature on it, that asks for an
answer. -/
def sealedFrame : LeafMessage :=
  { id := "m", sender := "p", recipient := "d", timestamp := 100000, requiresAck := true,
    signature := .absent, content := .encrypted (some ⟨some "p", "p", true⟩) }

lemma pairedFlash_rosters (h : ∀ committer roster, opened ≠ .commit committer roster) :
    LibraryRosters pairedFlash sealedFrame opened where
  stored p entry hentry := by
    have hinsert : get ((∅ : Table String StateEntry).insert "p"
        ⟨none, ⟨⟨"w", ["r"], some "p", 1, doorRoster, true⟩, 1, 1, doorRoster⟩⟩) p =
      some entry := hentry
    rcases of_get_insert hinsert with ⟨-, rfl⟩ | ⟨-, hnone⟩
    · simp [DistinctMembers, doorRoster]
    · cases hnone
  offered welcome hoffered := by cases hoffered
  committed committer roster hcommit := absurd hcommit (h committer roster)

theorem handle_accountable_message :
    (∀ faults, Accountable doorIdentity pairedFlash sealedFrame (.application 0 "open" none)
      (handle doorIdentity sealedFrame 100 "" (.application 0 "open" none) faults
        ⟨pairedFlash, []⟩)) ∧ SealsIntoPair doorIdentity pairedFlash := by
  refine (handle_accountable_iff doorIdentity pairedFlash sealedFrame 100 ""
    (.application 0 "open" none) (pairedFlash_rosters nofun)).2 ?_
  intro hacks
  obtain ⟨sealer, hother⟩ := hacks.unbound.other
  cases hother

/-- Anyone's key package in an envelope that names `p`: nothing proves it, and `p`
is sent an acknowledgement. -/
theorem unsealed_frame_is_acknowledged :
    (handle doorIdentity sealedFrame 100 "" (.other none) (fun _ => .done) ⟨pairedFlash, []⟩).1 =
        .returned ⟨[⟨1, "p", .acknowledge "m"⟩],
          [.ignored "sealed frame carried nothing this device acts on"]⟩ ∧
      answered pairedFlash sealedFrame = false ∧
      ¬Proven doorIdentity pairedFlash sealedFrame (.other none) "p" := by
  refine ⟨by decide +kernel, by decide +kernel, ?_⟩
  rintro (hsign | hsealed)
  · rcases hsign.signed with h | h <;> cases h
  obtain ⟨entry, -, -, -, index, hseal, -⟩ := hsealed.group
  cases hseal

end LeafDevice

end OfflineProtocol
