import OfflineProtocol.EventTrace
import OfflineProtocol.LeafDevice

/-! Runs of a leaf device: calls in any order, each with any end of each of its
operations on flash, and what the calls may do to flash. -/
namespace OfflineProtocol
open KeyedTable Interruption EventTrace GroupStateAdapter LeafDevice Preserves Triple KeyPackageAdapter

namespace LeafDevice

inductive LeafCall
  | keyPackageFrame (peer : String) (nowUnixSecs : ℕ) (reference : String)
  | sealContent (peer : String) (nowUnixSecs : ℕ)
  | handle (message : LeafMessage) (nowUnixSecs : ℕ) (reference : String) (opened : Opened)
  | unpair (peer : String) (nowUnixSecs : ℕ)

def LeafCall.now : LeafCall → ℕ
  | .keyPackageFrame _ now _ => now
  | .sealContent _ now => now
  | .handle _ now _ _ => now
  | .unpair _ now => now

def offered (message : LeafMessage) : Option MlsWelcome :=
  match message.content with
  | .welcome (some body) => body.welcomeData
  | _ => none

def LeafCall.offered : LeafCall → Option MlsWelcome
  | .handle message _ _ _ => LeafDevice.offered message
  | _ => none

def perform (me : LeafIdentity) : LeafCall → LeafM Handled
  | .keyPackageFrame peer now reference => do
    let frame ← keyPackageFrame me peer now reference
    pure ⟨[frame], []⟩
  | .sealContent peer _ => do
    let frame ← sealContent me peer
    pure ⟨[frame], []⟩
  | .handle message now reference opened => handle me message now reference opened
  | .unpair peer _ => do
    unpair me peer
    pure ⟨[], []⟩

structure LeafOp where
  call : LeafCall
  faults : ℕ → Fault

structure LeafReport where
  call : LeafCall
  outcome : Outcome LeafError Handled
  log : List (FlashOp × Fault)

/-- A device over its life: its flash, every Welcome it has written a state of,
and the time it has come to. -/
structure LeafWorld where
  flash : Flash
  joined : List MlsWelcome
  clock : ℕ

def LeafWorld.new : LeafWorld := ⟨.empty, [], 0⟩

def written (log : List (FlashOp × Fault)) : List MlsWelcome :=
  log.filterMap fun e => match e.1 with
    | .storeState _ entry => if e.2.applied then some entry.group.welcome else none
    | _ => none

def run (me : LeafIdentity) (f : Flash) (op : LeafOp) :
    Outcome LeafError Handled × Part Flash FlashOp :=
  perform me op.call op.faults ⟨f, []⟩

/-- One call. Whatever it did not put on flash is gone when the next one starts,
so a restart between two calls changes nothing. -/
def step (me : LeafIdentity) (w : LeafWorld) (op : LeafOp) : LeafWorld × List LeafReport :=
  let (outcome, s) := run me w.flash op
  (⟨s.durable, w.joined ++ written s.log, max w.clock op.call.now⟩, [⟨op.call, outcome, s.log⟩])

def LeafReport.handed (r : LeafReport) : List LeafFrame :=
  match r.outcome with
  | .returned handled => handled.outbound
  | _ => []

def LeafReport.events (r : LeafReport) : List LeafEvent :=
  match r.outcome with
  | .returned handled => handled.events
  | _ => []

def operations (reports : List LeafReport) : List (FlashOp × Fault) :=
  reports.flatMap LeafReport.log

lemma marker_eq {f : Flash}
    (h : get f.states peer = some entry) : f.marker peer = entry.marker := by
  unfold Flash.marker
  rw [h]

inductive KeyPackageOp : FlashOp → Prop
  | store (reference : String) (notBefore : ℕ) : KeyPackageOp (.storeKeyPackage reference notBefore)
  | delete (reference : String) : KeyPackageOp (.deleteKeyPackage reference)
  | index (index : List String) : KeyPackageOp (.storeKeyPackageIndex index)

inductive SessionDelete (peer : String) : FlashOp → Prop
  | epoch (n : ℕ) : SessionDelete peer (.deleteEpoch peer n)
  | state : SessionDelete peer (.deleteState peer)
  | highWater : SessionDelete peer (.deleteHighWater peer)

inductive ForgetOp (peer : String) : FlashOp → Prop
  | session {op : FlashOp} (h : SessionDelete peer op) : ForgetOp peer op
  | keyPackage {op : FlashOp} (h : KeyPackageOp op) : ForgetOp peer op
  | record : ForgetOp peer (.deletePeer peer)

inductive PeerIndexOp : FlashOp → Prop
  | store (index : List String) : PeerIndexOp (.storePeerIndex index)

abbrev Keeps (kind : FlashOp → Prop) (P : Part Flash FlashOp → Prop) : Prop :=
  Stable FlashOp.effect kind P

section
variable {P : Part Flash FlashOp → Prop}
variable (me : LeafIdentity)

lemma onFlash_preserves (h : Keeps kind P) (hop : kind op) : Preserves P (onFlash op) :=
  .operate h hop

lemma erase_preserves (h : Keeps KeyPackageOp P) : Preserves P (erase reference) := by
  refine .bind (onFlash_preserves h (.delete reference)) fun _ => ?_
  refine .bind .read fun index => ?_
  split_ifs
  · refine .bind (.attempt (onFlash_preserves h (.index _))) fun _ => ?_
    exact .pure
  · exact .pure

lemma insert_preserves (h : Keeps KeyPackageOp P) :
    Preserves P (insert reference notBefore) := by
  refine .bind .read fun held => ?_
  refine .bind (.each fun stale _ => onFlash_preserves h (.delete stale)) fun _ => ?_
  refine .bind (onFlash_preserves h (.index _)) fun _ => ?_
  exact onFlash_preserves h (.store reference notBefore)

lemma forgetSession_preserves
    (h : Keeps (SessionDelete peer) P) : Preserves P (forgetSession me peer) := by
  refine .bind .lift fun _ => ?_
  refine .bind .read fun highest => ?_
  refine .bind (.each fun n _ => onFlash_preserves h (.epoch n)) fun _ => ?_
  refine .bind (onFlash_preserves h .state) fun _ => ?_
  exact onFlash_preserves h .highWater

lemma forgetPeer_preserves
    (hsession : Preserves P (forgetSession me peer)) (hkey : Keeps KeyPackageOp P)
    (hrec : Preserves P (onFlash (.deletePeer peer))) : Preserves P (forgetPeer me peer) := by
  refine .bind .read fun minted => ?_
  refine .bind hsession fun _ => ?_
  cases minted with
  | none => exact hrec
  | some reference => exact .bind (erase_preserves hkey) fun _ => hrec

lemma forgetPeer_keeps (h : Keeps (ForgetOp peer) P) : Preserves P (forgetPeer me peer) :=
  forgetPeer_preserves me (forgetSession_preserves me (h.mono fun _ hop => .session hop))
    (h.mono fun _ hop => .keyPackage hop) (onFlash_preserves h .record)

lemma indexPeer_preserves (h : Keeps PeerIndexOp P) : Preserves P (indexPeer peer) := by
  refine .bind .read fun index => ?_
  split_ifs
  · exact .pure
  · exact onFlash_preserves h (.store _)

lemma admitPeer_spec
    {D : String → Part Flash FlashOp → Prop} (hPQ : ∀ s, P s → Q s) (hindex : Keeps PeerIndexOp Q)
    (hstart : ∀ s v, P s → peer ∉ s.durable.peerIndex → maxPeers ≤ s.durable.peerIndex.length →
      victim me s.durable = some v → D v s)
    (hforg : ∀ v, Preserves (D v) (forgetPeer me v)) (hend : ∀ v s, D v s → Q s) :
    Triple P (admitPeer me peer) (fun _ => Q) Q := by
  refine .observe fun f => ?_
  by_cases hheld : peer ∈ f.peerIndex
  · rw [if_pos hheld]
    exact .pure fun s hs => hPQ s hs.1
  rw [if_neg hheld]
  by_cases hfull : maxPeers ≤ f.peerIndex.length
  · rw [if_pos hfull]
    cases hv : victim me f with
    | none => exact .raise fun s hs => hPQ s hs.1
    | some v =>
      refine .bind ((hforg v).mono ?_ (fun _ s hs => hend v s hs) (hend v)) fun _ => ?_
      · rintro s ⟨hs, rfl⟩
        exact hstart s v hs hheld hfull hv
      · exact onFlash_preserves hindex (.store _)
  · rw [if_neg hfull]
    exact (onFlash_preserves hindex (.store _)).mono (fun s hs => hPQ s hs.1) (fun _ s hs => hs)
      fun s hs => hs

lemma admitPeer_preserves (hindex : Keeps PeerIndexOp P)
    (hforg : ∀ v, Preserves P (forgetPeer me v)) : Preserves P (admitPeer me peer) :=
  admitPeer_spec me (fun _ => id) hindex (fun _ _ hs _ _ _ => hs) hforg fun _ _ => id

inductive BesideState (peer : String) : FlashOp → Prop
  | storeEpoch (n : ℕ) (w : MlsWelcome) : BesideState peer (.storeEpoch peer n w)
  | storeHighWater (n : ℕ) : BesideState peer (.storeHighWater peer n)
  | trimEpoch (n : ℕ) : BesideState peer (.trimEpoch peer n)
  | keyPackage {op : FlashOp} (h : KeyPackageOp op) : BesideState peer op

lemma BesideState.states (hop : BesideState peer op) (f) : (op.effect f).states = f.states := by
  cases hop with
  | keyPackage h => cases h <;> rfl
  | _ => rfl

inductive AfterState (peer : String) : FlashOp → Prop
  | trimEpoch (n : ℕ) : AfterState peer (.trimEpoch peer n)
  | keyPackage {op : FlashOp} (h : KeyPackageOp op) : AfterState peer op

lemma trim_preserves (h : Keeps (AfterState peer) P) (n) : Preserves P (trim peer n) := by
  unfold trim
  split_ifs
  · refine .bind (.attempt (onFlash_preserves h (.trimEpoch _))) fun _ => ?_
    exact .pure
  · exact .pure

lemma writeToStorage_spec
    (hP : ∀ n ∈ inserts ++ updates, Keeps (· = .storeEpoch peer n group.welcome) P)
    (hQ : Keeps (AfterState peer) Q)
    (hhigh : inserts ++ updates ≠ [] → ∀ n, Preserves Q (onFlash (.storeHighWater peer n)))
    (hstore : ∀ s fault, P s → (fault = .done → Q (s.after FlashOp.effect (.storeState peer
        ⟨advance (s.durable.marker peer) (inserts ++ updates), group⟩) fault)) ∧
      R (s.after FlashOp.effect (.storeState peer
        ⟨advance (s.durable.marker peer) (inserts ++ updates), group⟩) fault))
    (hPR : ∀ s, P s → R s) (hQR : ∀ s, Q s → R s) :
    Triple P (writeToStorage peer group inserts updates consumed) (fun _ => Q) R := by
  -- The records come first; the marker read before them still stands after them.
  have hbefore (previous : Option ℕ) : Preserves (fun s => P s ∧ previous = s.durable.marker peer)
        (each (inserts ++ updates) fun epoch => onFlash (.storeEpoch peer epoch group.welcome)) := by
    refine .each fun n hn => onFlash_preserves ?_ rfl
    rintro s op fault rfl ⟨hs, hprev⟩
    refine ⟨hP n hn s _ fault rfl hs, ?_⟩
    unfold Part.after
    split_ifs <;> exact hprev
  have hstate (previous) : Triple (fun s => P s ∧ previous = s.durable.marker peer)
      (onFlash (.storeState peer
        ⟨advance previous (inserts ++ updates), group⟩)) (fun _ => Q) R := by
    apply Triple.operate
    · rintro s ⟨hs, rfl⟩
      exact (hstore s .done hs).1 rfl
    rintro s fault ⟨hs, rfl⟩ -
    exact (hstore s fault hs).2
  have htrim : Preserves Q (each inserts (trim peer)) :=
    .each fun n _ => trim_preserves hQ n
  have hwrite : Triple P (write peer group inserts updates) (fun _ => Q) R := by
    refine .observe fun previous => ?_
    refine .bind ((hbefore previous).within fun s hs => hPR s hs.1) fun _ => ?_
    refine .bind (hstate previous) fun _ => ?_
    refine Triple.within (R := Q) ?_ hQR
    by_cases hsame : advance previous (inserts ++ updates) = previous
    · rw [if_pos hsame]
      exact htrim
    have hne : inserts ++ updates ≠ [] := by
      intro hnil
      rw [hnil] at hsame
      exact hsame rfl
    split
    · exact .bind (hhigh hne _).attempt fun _ => htrim
    · exact htrim
  refine .bind hwrite fun _ => ?_
  cases consumed with
  | none => exact .pure fun _ => id
  | some reference =>
    exact (erase_preserves (hQ.mono fun _ hop => .keyPackage hop)).within hQR

lemma writeToStorage_beside
    (hP : Keeps (BesideState peer) P) (hQ : Keeps (BesideState peer) Q)
    (hdone : ∀ s marker, P s → Q (s.after FlashOp.effect (.storeState peer ⟨marker, group⟩) .done))
    (hstop : ∀ s marker fault, P s →
      R (s.after FlashOp.effect (.storeState peer ⟨marker, group⟩) fault))
    (hPR : ∀ s, P s → R s) (hQR : ∀ s, Q s → R s) :
    Triple P (writeToStorage peer group inserts updates consumed) (fun _ => Q) R := by
  apply writeToStorage_spec
  · exact fun n _ => hP.mono fun op hop => by rw [hop]; exact .storeEpoch n _
  · refine hQ.mono fun op hop => ?_
    cases hop with
    | trimEpoch n => exact .trimEpoch n
    | keyPackage h => exact .keyPackage h
  · exact fun _ n => onFlash_preserves hQ (.storeHighWater n)
  · intro s fault hs
    refine ⟨fun hfault => ?_, hstop s _ fault hs⟩
    rw [hfault]
    exact hdone s _ hs
  · exact hPR
  · exact hQR

lemma readAll_spec : Triple P (read id : LeafM Flash) (fun f s => P s ∧ f = s.durable) P :=
  .read fun _ hs => ⟨hs, rfl⟩

inductive TalkOp (peer : String) : FlashOp → Prop
  | counter (n : ℕ) : TalkOp peer (.storeCounter n)
  | state (entry : StateEntry) : TalkOp peer (.storeState peer entry)
  | beside {op : FlashOp} (h : BesideState peer op) : TalkOp peer op
  | index {op : FlashOp} (h : PeerIndexOp op) : TalkOp peer op

/-- Building a frame writes the counter and nothing else. -/
lemma build_preserves (h : ∀ n, Preserves P (onFlash (.storeCounter n))) {me} :
    Preserves P (build me recipient body) := by
  refine .bind ?_ fun counter => ?_
  · refine .bind .read fun current => ?_
    refine .bind (h _) fun _ => ?_
    exact .pure
  split_ifs
  · exact .pure
  · exact .raise

def Loaded (p : String) (group : Group) (s : Part Flash FlashOp) : Prop :=
  ∃ entry, get s.durable.states p = some entry ∧ entry.group = group

lemma Loaded.after (h : Loaded p group s) (hop : ∀ f, (op.effect f).states = f.states) (fault) :
    Loaded p group (s.after FlashOp.effect op fault) := by
  unfold Loaded
  rwa [Part.after_same Flash.states hop]

lemma loadGroup_spec :
    Triple P (loadGroup me peer) (fun group s => P s ∧ Loaded peer group s) P := by
  refine bind Preserves.lift fun _ => ?_
  refine .observe fun entry => ?_
  cases entry with
  | none => exact .raise fun s hs => hs.1
  | some entry => exact .pure fun s hs => ⟨hs.1, entry, hs.2.symm, rfl⟩

lemma writeToStorage_preserves (h : Keeps (TalkOp peer) P) :
    Preserves P (writeToStorage peer group inserts updates consumed) :=
  writeToStorage_beside (h.mono fun _ hop => .beside hop)
    (h.mono fun _ hop => .beside hop) (fun s _ hs => h s _ .done (.state _) hs)
    (fun s _ fault hs => h s _ fault (.state _) hs) (fun _ => id) fun _ => id

lemma sealContent_preserves (h : Keeps (TalkOp peer) P) : Preserves P (sealContent me peer) := by
  refine .bind ((loadGroup_spec me).mono (fun _ => id) (fun _ _ hs => hs.1)
    fun _ => id) fun group => ?_
  refine .bind .lift fun _ => ?_
  refine .bind (writeToStorage_preserves h) fun _ => ?_
  refine .bind .read fun record => ?_
  exact build_preserves (fun n => onFlash_preserves h (.counter n))

def Handled.NoReset (handled : Handled) : Prop := ∀ p, .sessionReset p ∉ handled.events

abbrev KeepsQuietly (P : Part Flash FlashOp → Prop) (m : LeafM Handled) : Prop :=
  Triple P m (fun handled s => P s ∧ Handled.NoReset handled) P

/-- A Welcome that goes through: what its checks found, and what joining gave. -/
structure Joins (me : LeafIdentity) (message : LeafMessage) (now : ℕ) (body : Option WelcomeMessage)
    (f : Flash) (welcome : MlsWelcome) (group : Group) (consumed : String) : Prop where
  verified : ∃ payload, verifyControlFrame message now .refused = .ok payload
  offered : ∃ b, body = some b ∧ b.welcomeData = some welcome
  own : requireOwnKeyPackage f message.sender welcome = .ok ()
  joined : joinGroup f welcome = .ok (group, consumed)
  home : welcome.group = some message.sender

lemma Joins.offered_by {me : LeafIdentity}
    (h : Joins me message now body f welcome group consumed)
    (hc : message.content = .welcome body) : LeafDevice.offered message = some welcome := by
  obtain ⟨b, rfl, hdata⟩ := h.offered
  unfold LeafDevice.offered
  rw [hc]
  exact hdata

lemma onWelcome_spec {Q : Handled → Part Flash FlashOp → Prop} {body now} (hR : ∀ s, P s → R s)
    (h : ∀ f welcome group consumed, Joins me message now body f welcome group consumed →
      Triple (fun s => P s ∧ f = s.durable) (do
          writeToStorage message.sender group [] [] (some consumed)
          indexPeer message.sender
          let confirm ← sealContent me message.sender
          pure ⟨[confirm], [.sessionEstablished message.sender]⟩) Q R) :
    Triple P (onWelcome me message body now) Q R := by
  unfold onWelcome
  refine .lift_bind (fun payload hver => ?_) hR
  cases body with
  | none => exact .raise hR
  | some body =>
    by_cases hinvite : body.inviterId = message.sender
    · simp only [if_pos hinvite]
      refine bind (Preserves.lift.within hR) fun _ => ?_
      by_cases hgroup : body.groupId = some message.sender
      · simp only [if_pos hgroup]
        cases hdata : body.welcomeData with
        | none => exact .raise hR
        | some welcome =>
          refine .bind (readAll_spec.within hR) fun f => ?_
          refine .lift_bind (fun _ hown => ?_) fun s hs => hR s hs.1
          refine .lift_bind (fun r hjoin => ?_) fun s hs => hR s hs.1
          by_cases hhome : welcome.group = some message.sender
          · simp only [if_pos hhome]
            exact h f welcome r.1 r.2 ⟨⟨payload, hver⟩, ⟨body, rfl, hdata⟩, hown, hjoin, hhome⟩
          simp only [if_neg hhome]
          exact .raise fun s hs => hR s hs.1
      · simp only [if_neg hgroup]
        exact .raise hR
    · simp only [if_neg hinvite]
      exact .raise hR

structure Opens (me : LeafIdentity) (message : LeafMessage) (body : Option EncryptedMessage)
    (opened : Opened) (f : Flash) (group next : Group) (inserts updates : List ℕ) : Prop where
  addressed : ∃ envelope, body = some envelope ∧ envelope.senderId = message.sender ∧
    envelope.groupId = some message.sender ∧ envelope.decodes = true
  named : groupId me message.sender = .ok ()
  pair : requireStillAPair me group message.sender = .ok ()
  processed : processIncoming f message.sender group opened = .ok (next, inserts, updates)

lemma onEncrypted_spec {Q : Handled → Part Flash FlashOp → Prop}
    (body opened) (hR : ∀ s, P s → R s) (h : ∀ f group next inserts updates,
      Opens me message body opened f group next inserts updates →
      Triple (fun s => (P s ∧ Loaded message.sender group s) ∧ f = s.durable) (do
          writeToStorage message.sender next inserts updates none
          let events ← lift (openedEvents me message.sender next opened)
          pure ⟨[], events⟩) Q R) : Triple P (onEncrypted me message body opened) Q R := by
  unfold onEncrypted
  cases body with
  | none => exact .raise hR
  | some envelope =>
    by_cases hsend : envelope.senderId = message.sender
    · simp only [if_pos hsend]
      refine .lift_bind (fun _ hnamed => ?_) hR
      by_cases hgroup : envelope.groupId = some message.sender
      · simp only [if_pos hgroup]
        refine .bind ((loadGroup_spec me).mono (fun _ => id)
          (fun _ _ => id) hR) fun group => ?_
        refine .lift_bind (fun _ hpair => ?_) fun s hs => hR s hs.1
        by_cases hdec : envelope.decodes
        · simp only [if_pos hdec]
          refine .bind (readAll_spec.within fun s hs => hR s hs.1) fun f => ?_
          refine .lift_bind (fun r hproc => ?_) fun s hs => hR s hs.1.1
          exact h f group r.1 r.2.1 r.2.2 ⟨⟨envelope, rfl, hsend, hgroup, hdec⟩, hnamed, hpair,
            hproc⟩
        · simp only [if_neg hdec]
          exact .raise fun s hs => hR s hs.1
      · simp only [if_neg hgroup]
        exact .raise hR
    · simp only [if_neg hsend]
      exact .raise hR

lemma onWelcome_keeps (h : Keeps (TalkOp message.sender) P)
    {now} : KeepsQuietly P (onWelcome me message body now) := by
  refine onWelcome_spec me (fun _ => id) fun f welcome group consumed _ => ?_
  refine .bind ((writeToStorage_preserves h).pre (fun _ hs => hs.1)) fun _ => ?_
  refine .bind (indexPeer_preserves (h.mono fun _ hop => .index hop)) fun _ => ?_
  exact .bind (sealContent_preserves me h) fun _ =>
    .pure fun s hs => ⟨hs, by simp [Handled.NoReset]⟩

lemma openedEvents_noReset {me : LeafIdentity}
    (h : openedEvents me peer group opened = .ok events) (p) : .sessionReset p ∉ events := by
  cases opened with
  | refused =>
    cases h
    simp
  | other sealer =>
    cases h
    simp
  | application sender text prior =>
    simp only [openedEvents] at h
    cases hb : bindSenderCredential group sender peer with
    | error e =>
      rw [hb] at h
      cases h
    | ok _ =>
      rw [hb] at h
      cases h
      split_ifs <;> simp
  | commit committer roster =>
    simp only [openedEvents] at h
    cases hp : requireStillAPair me group peer with
    | error e =>
      rw [hp] at h
      cases h
    | ok _ =>
      cases hb : bindSenderCredential group committer peer with
      | error e =>
        rw [hp, hb] at h
        cases h
      | ok _ =>
        rw [hp, hb] at h
        cases h
        simp

lemma onEncrypted_keeps (h : Keeps (TalkOp message.sender) P) :
    KeepsQuietly P (onEncrypted me message body opened) := by
  refine onEncrypted_spec me body opened (fun _ => id) fun f group next inserts updates _ => ?_
  refine .bind ((writeToStorage_preserves h).pre (fun _ hs => hs.1.1)) fun _ => ?_
  have hevent : Triple P (lift (openedEvents me message.sender next opened) : LeafM _)
      (fun events s => P s ∧ ∀ p, .sessionReset p ∉ events) P :=
    .lift (fun events s hok hs => ⟨hs, openedEvents_noReset hok⟩) fun _ => id
  exact .bind hevent fun _ => .pure fun s hs => hs

lemma onProbe_keeps
    (h : Keeps (TalkOp message.sender) P) {now} : KeepsQuietly P (onProbe me message now) := by
  refine bind Preserves.lift fun _ => ?_
  refine bind Preserves.lift fun _ => ?_
  refine bind Preserves.read fun entry => ?_
  cases entry with
  | none => exact .pure fun s hs => ⟨hs, by simp [Handled.NoReset, ignored]⟩
  | some entry =>
    refine bind Preserves.lift fun _ => ?_
    exact .bind (build_preserves (fun n => onFlash_preserves h (.counter n))) fun _ =>
      .pure fun s hs => ⟨hs, by simp [Handled.NoReset]⟩

end

inductive Bookkeeping : FlashOp → Prop
  | counter (n : ℕ) : Bookkeeping (.storeCounter n)
  | keyPackage {op : FlashOp} (h : KeyPackageOp op) : Bookkeeping op
  | storePeer (peer : String) (record : PeerRecord) : Bookkeeping (.storePeer peer record)
  | markReset (peer : String) (record : PeerRecord) : Bookkeeping (.markReset peer record)
  | deletePeer (peer : String) : Bookkeeping (.deletePeer peer)
  | index {op : FlashOp} (h : PeerIndexOp op) : Bookkeeping op

namespace Bookkeeping

lemma states (hop : Bookkeeping op) (f) : (op.effect f).states = f.states := by
  cases hop with
  | keyPackage h => cases h <;> rfl
  | index h => cases h; rfl
  | _ => rfl

variable {me : LeafIdentity} {P : Part Flash FlashOp → Prop}

section
variable (h : Keeps Bookkeeping P)
include h

lemma build {recipient body} : Preserves P (OfflineProtocol.build me recipient body) :=
  build_preserves (fun n => onFlash_preserves h (.counter n))

lemma keyPackageFrame {peer now reference} :
    Preserves P (keyPackageFrame me peer now reference) := by
  refine .bind (insert_preserves (h.mono fun _ hop => .keyPackage hop)) fun _ => ?_
  refine .bind (build h) fun frame => ?_
  refine .bind .read fun record => ?_
  refine .bind (onFlash_preserves h (.storePeer _ _)) fun _ => ?_
  refine .bind (indexPeer_preserves (h.mono fun _ hop => .index hop)) fun _ => ?_
  exact .pure

lemma acknowledge {message} : Preserves P (acknowledge me message) := by
  unfold LeafDevice.acknowledge
  split_ifs
  · refine .bind .read fun known => ?_
    cases known with
    | none => exact .pure
    | some record =>
      refine .bind (build h) fun ack => ?_
      exact .bind (onFlash_preserves h (.storePeer _ _)) fun _ => .pure
  · exact .pure

lemma onProbe {message now} : Preserves P (onProbe me message now) := by
  refine .bind .lift fun _ => ?_
  refine .bind .lift fun _ => ?_
  refine .bind .read fun entry => ?_
  cases entry with
  | none => exact .pure
  | some entry =>
    refine .bind .lift fun _ => ?_
    exact .bind (build h) fun _ => .pure

end

section
variable (h : Keeps Bookkeeping P) (hforg : ∀ p, Preserves P (forgetSession me p))
include h hforg

lemma forgetPeer (peer) : Preserves P (forgetPeer me peer) :=
  forgetPeer_preserves me (hforg peer) (h.mono fun _ hop => .keyPackage hop)
    (onFlash_preserves h (.deletePeer peer))

lemma unpair {peer} : Preserves P (unpair me peer) := by
  refine .bind (forgetPeer h hforg peer) fun _ => ?_
  refine .bind .read fun index => ?_
  split_ifs
  · exact onFlash_preserves h (.index (.store _))
  · exact .pure

lemma onReset {message payload} {signedUnder record} :
    Preserves P (onReset me message payload signedUnder record) := by
  unfold LeafDevice.onReset
  split_ifs
  · exact .pure
  · refine .bind (onFlash_preserves h (.markReset _ _)) fun _ => ?_
    exact .bind (hforg message.sender) fun _ => .pure
  · exact .pure
  · exact .pure

lemma onKeyPackage {message body now}
    {reference} : Preserves P (onKeyPackage me message body now reference) := by
  refine .bind .lift fun signedUnder => ?_
  cases body with
  | none => exact .raise
  | some payload =>
    by_cases huser : payload.userId = message.sender
    · simp only [if_pos huser]
      refine .bind (admitPeer_preserves me (h.mono fun _ hop => .index hop)
        (forgetPeer h hforg)) fun _ => ?_
      refine .bind .read fun held => ?_
      refine .bind (onReset h hforg) fun answer => ?_
      refine .bind (onFlash_preserves h (.storePeer _ _)) fun _ => ?_
      split_ifs
      · exact .pure
      · exact .bind (keyPackageFrame h) fun _ => .pure
    · simp only [if_neg huser]
      exact .raise

lemma handle {C : Part Flash FlashOp → Prop}
    {reference} (hwelcome : ∀ body, message.content = .welcome body →
      Triple (fun s => P s ∧ C s) (onWelcome me message body now) (fun _ => P) P)
    (hencrypted : ∀ body, message.content = .encrypted body →
      Triple (fun s => P s ∧ C s) (onEncrypted me message body opened) (fun _ => P) P) :
    Triple (fun s => P s ∧ C s) (handle me message now reference opened) (fun _ => P) P := by
  have hplain {α} {m : LeafM α} (hm : Preserves P m) :
      Triple (fun s => P s ∧ C s) m (fun _ => P) P :=
    hm.pre fun s hs => hs.1
  have hdisp : Triple (fun s => P s ∧ C s) (dispatch me message now reference opened)
      (fun _ => P) P := by
    unfold dispatch
    cases hc : message.content with
    | keyPackage body =>
      exact bind (hplain (onKeyPackage h hforg)) fun _ => pure
    | welcome body => exact bind (hwelcome body hc) fun _ => pure
    | encrypted body => exact bind (hencrypted body hc) fun _ => pure
    | sessionConfirmProbe => exact bind (hplain (onProbe h)) fun _ => pure
    | sessionConfirmAck => exact hplain .pure
    | unprefixed => exact hplain .pure
  refine bind (Preserves.read.within fun s hs => hs.1) fun f => ?_
  split_ifs
  · exact hplain .pure
  · exact hplain (.bind (build h) fun _ => .pure)
  refine .bind hdisp fun r => ?_
  obtain ⟨handled, proven⟩ := r
  simp only
  split_ifs
  · refine .bind (acknowledge h).attempt fun answer => ?_
    match answer with
    | .ok (some ack) => exact pure
    | .ok none => exact pure
    | .error _ => exact pure
  · exact pure

/-- One call, however its operations on flash end. -/
lemma step {w op} (hseal : ∀ peer, Preserves P (sealContent me peer))
    (hhand : ∀ message now reference opened, op.call = .handle message now reference opened →
      Triple (fun s => P s ∧ s.durable = w.flash) (LeafDevice.handle me message now reference opened)
        (fun _ => P) P)
    (hlog : ∀ s, P s → P ⟨s.durable, []⟩) (hs : P ⟨w.flash, []⟩) : P ⟨(step me w op).1.flash, []⟩ := by
  obtain ⟨call, faults⟩ := op
  have hcall : Triple (fun s => P s ∧ s.durable = w.flash) (perform me call) (fun _ => P) P := by
    have hplain {m : LeafM Handled} (hm : Preserves P m) :
        Triple (fun s => P s ∧ s.durable = w.flash) m (fun _ => P) P :=
      hm.pre fun s hs => hs.1
    cases call with
    | keyPackageFrame peer now reference =>
      exact hplain (.bind (keyPackageFrame h) fun _ => .pure)
    | sealContent peer now => exact hplain (.bind (hseal peer) fun _ => .pure)
    | unpair peer now => exact hplain (.bind (unpair h hforg) fun _ => .pure)
    | handle message now reference opened => exact hhand message now reference opened rfl
  exact hlog _ (Triple.run hcall faults ⟨hs, rfl⟩)

end

end Bookkeeping

end LeafDevice

end OfflineProtocol
