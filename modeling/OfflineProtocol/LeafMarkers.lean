import OfflineProtocol.LeafRuns

/-! The epoch marker. The library refuses a commit whose epoch is not one above the
marker, and the marker is carried over from whatever state entry is on flash. -/
namespace OfflineProtocol
open KeyedTable Interruption EventTrace GroupStateAdapter Preserves List

/-- The last epoch a group has left since it was joined: none before the first
commit. -/
def Group.lastLeft (group : Group) : Option ℕ :=
  if group.epoch = group.welcome.epoch then none else some (group.epoch - 1)

structure StateEntry.Marked (entry : StateEntry) : Prop where
  joined : entry.group.welcome.epoch ≤ entry.group.epoch
  marker : entry.marker = entry.group.lastLeft

namespace LeafDevice

def MarkersTrue (s : Part Flash FlashOp) : Prop :=
  ∀ p entry, get s.durable.states p = some entry → entry.Marked

lemma markersTrue_of_states (h : ∀ f, (op.effect f).states = f.states) (hs : MarkersTrue s) :
    MarkersTrue (s.after FlashOp.effect op fault) := by
  unfold MarkersTrue
  rwa [Part.after_same Flash.states h]

lemma markersTrue_bookkeeping : Keeps Bookkeeping MarkersTrue :=
  fun _ _ _ hop hs => markersTrue_of_states hop.states hs

lemma markersTrue_besideState (peer) : Keeps (BesideState peer) MarkersTrue :=
  fun _ _ _ hop hs => markersTrue_of_states hop.states hs

lemma markersTrue_sessionDelete : Keeps (SessionDelete peer) MarkersTrue := by
  intro s op fault hop hs
  cases hop with
  | epoch n => exact markersTrue_of_states (fun _ => rfl) hs
  | highWater => exact markersTrue_of_states (fun _ => rfl) hs
  | state =>
    intro p entry hp
    unfold Part.after at hp
    split_ifs at hp
    · exact hs p entry (of_get_erase hp).2
    · exact hs p entry hp

lemma forgetSession_markersTrue (p) : Preserves MarkersTrue (forgetSession me p) :=
  forgetSession_preserves me markersTrue_sessionDelete

lemma markersTrue_storeState (peer fault) (hs : MarkersTrue s) (hentry : entry.Marked) :
    MarkersTrue (s.after FlashOp.effect (.storeState peer entry) fault) := by
  intro p held hp
  unfold Part.after at hp
  split_ifs at hp
  · rcases of_get_insert hp with ⟨-, rfl⟩ | ⟨-, hinsert⟩
    · exact hentry
    · exact hs p held hinsert
  · exact hs p held hp

def Advances (peer : String) (group : Group) (epochs : List ℕ) (f : Flash) : Prop :=
  StateEntry.Marked ⟨advance (f.marker peer) epochs, group⟩

lemma writeToStorage_markersTrue (group inserts updates) (consumed) :
    Triple (fun s => MarkersTrue s ∧ Advances peer group (inserts ++ updates) s.durable)
      (writeToStorage peer group inserts updates consumed) (fun _ => MarkersTrue) MarkersTrue := by
  apply writeToStorage_spec
  · -- An epoch record moves no marker.
    rintro n - s op fault rfl ⟨hs, hadvance⟩
    refine ⟨markersTrue_besideState peer s _ fault (.storeEpoch n _) hs, ?_⟩
    unfold Part.after
    split_ifs <;> exact hadvance
  · refine (markersTrue_besideState peer).mono fun op hop => ?_
    cases hop with
    | trimEpoch n => exact .trimEpoch n
    | keyPackage h => exact .keyPackage h
  · intro _ n
    exact onFlash_preserves (markersTrue_besideState peer) (.storeHighWater n)
  · rintro s fault ⟨hs, hadvance⟩
    have hstored := markersTrue_storeState peer fault hs hadvance
    exact ⟨fun _ => hstored, hstored⟩
  · exact fun s hs => hs.1
  · exact fun s hs => hs

lemma sealContent_markersTrue : Preserves MarkersTrue (sealContent me peer) := by
  refine Triple.bind (loadGroup_spec me) fun group => ?_
  refine Triple.bind (Preserves.lift.within fun s hs => hs.1) fun _ => ?_
  refine .bind ((writeToStorage_markersTrue _ [] [] none).pre ?_) fun _ => ?_
  · -- Sealing moves the generation only.
    rintro s ⟨hs, entry, hentry, rfl⟩
    have hmark := hs peer entry hentry
    refine ⟨hs, hmark.joined, ?_⟩
    rw [marker_eq hentry]
    exact hmark.marker
  · refine bind Preserves.read fun record => ?_
    exact Bookkeeping.build markersTrue_bookkeeping

def Opened.prior : Opened → Option ℕ
  | .application _ _ prior => prior
  | _ => none

/-- A Welcome is joined only where no session has left an epoch, and a frame of a
prior epoch is opened only for an epoch left since the last join. -/
def MarkerKept (f : Flash) (message : LeafMessage) (opened : Opened) : Prop :=
  (∀ welcome ∈ offered message,
    (requireOwnKeyPackage f message.sender welcome).isOk = true → f.marker message.sender = none) ∧
  ∀ prior ∈ opened.prior, ∀ entry ∈ get f.states message.sender,
    entry.group.welcome.epoch ≤ prior ∧ prior < entry.group.epoch

instance (f : Flash) (message : LeafMessage) (opened : Opened) :
    Decidable (MarkerKept f message opened) :=
  inferInstanceAs (Decidable ((∀ welcome ∈ offered message, _ → _) ∧
    ∀ prior ∈ opened.prior, ∀ entry ∈ get f.states message.sender, _))

lemma lastLeft_of_lt {group : Group} (h : group.welcome.epoch < group.epoch) :
    group.lastLeft = some (group.epoch - 1) := by
  rw [Group.lastLeft, if_neg (by omega)]

lemma processIncoming_advances {next : Group}
    (hentry : get f.states peer = some entry) (hmark : entry.Marked)
    (hprior : ∀ prior ∈ opened.prior, entry.group.welcome.epoch ≤ prior ∧ prior < entry.group.epoch)
    (hok : processIncoming f peer entry.group opened = .ok (next, inserts, updates)) :
    Advances peer next (inserts ++ updates) f := by
  have hsame : Advances peer entry.group [] f := by
    refine ⟨hmark.joined, ?_⟩
    simp only [advance, foldl_nil]
    rw [marker_eq hentry]
    exact hmark.marker
  cases opened with
  | refused => cases hok
  | other sealer =>
    cases hok
    exact hsame
  | application sender text prior =>
    cases prior with
    | none =>
      cases hok
      exact hsame
    | some prior =>
      simp only [processIncoming] at hok
      split_ifs at hok
      cases hok
      -- The epoch is below the last one left, so the marker stays.
      obtain ⟨hlow, hhigh⟩ := hprior prior rfl
      have hleft := lastLeft_of_lt (lt_of_le_of_lt hlow hhigh)
      refine ⟨hmark.joined, ?_⟩
      simp only [nil_append, advance, foldl_cons, foldl_nil]
      rw [marker_eq hentry, hmark.marker, hleft]
      simp only [Option.some.injEq]
      omega
  | commit committer roster =>
    unfold processIncoming at hok
    split_ifs at hok
    cases hok
    have hjoin := hmark.joined
    refine ⟨by simp only; omega, ?_⟩
    simp only [append_nil, advance, foldl_cons, foldl_nil]
    rw [lastLeft_of_lt (by simp only; omega), marker_eq hentry, hmark.marker]
    unfold Group.lastLeft
    split_ifs
    · rfl
    simp only [Option.some.injEq]
    omega

lemma onEncrypted_markersTrue :
    Triple (fun s => MarkersTrue s ∧ MarkerKept s.durable message opened)
      (onEncrypted me message body opened) (fun _ => MarkersTrue) MarkersTrue := by
  refine onEncrypted_spec me body opened (fun s hs => hs.1) fun f group next inserts updates h => ?_
  refine .bind ((writeToStorage_markersTrue next inserts updates none).pre ?_) fun _ => ?_
  · rintro s ⟨⟨⟨hs, hkept⟩, entry, hentry, rfl⟩, rfl⟩
    exact ⟨hs, processIncoming_advances hentry (hs message.sender entry hentry)
      (fun prior hprior => hkept.2 prior hprior entry hentry) h.processed⟩
  · exact bind Preserves.lift fun _ => pure

lemma joinGroup_advances
    (h : joinGroup f welcome = .ok (group, consumed)) (hnone : f.marker peer = none) :
    Advances peer group [] f := by
  unfold joinGroup at h
  split at h
  · split_ifs at h
    cases h
    refine ⟨le_refl _, ?_⟩
    simp only [advance, foldl_nil, Group.lastLeft, if_true]
    exact hnone
  · cases h

lemma onWelcome_markersTrue (hc : message.content = .welcome body) {now opened} :
    Triple (fun s => MarkersTrue s ∧ MarkerKept s.durable message opened)
      (onWelcome me message body now) (fun _ => MarkersTrue) MarkersTrue := by
  have hindex : Preserves MarkersTrue (indexPeer message.sender) :=
    indexPeer_preserves (markersTrue_bookkeeping.mono fun _ hop => .index hop)
  refine onWelcome_spec me (fun s hs => hs.1) fun f welcome group consumed h => ?_
  refine .bind ((writeToStorage_markersTrue group [] [] (some consumed)).pre ?_) fun _ => ?_
  · rintro s ⟨⟨hs, hkept⟩, rfl⟩
    have hfree := hkept.1 welcome (h.offered_by hc) (by rw [h.own]; rfl)
    exact ⟨hs, joinGroup_advances h.joined hfree⟩
  refine .bind hindex fun _ => ?_
  exact bind sealContent_markersTrue fun _ => pure

/-- A call keeps the markers true. -/
def CallKeepsMarker (w : LeafWorld) (op : LeafOp) : Prop :=
  match op.call with
  | .handle message _ _ opened => MarkerKept w.flash message opened
  | _ => True

instance (w : LeafWorld) : ∀ op, Decidable (CallKeepsMarker w op) := by
  intro op
  apply @LeafCall.casesOn (fun c => Decidable (CallKeepsMarker w ⟨c, op.faults⟩)) op.call <;>
    intros <;> dsimp only [CallKeepsMarker] <;> infer_instance

lemma markersTrue_step (me w op) (h : MarkersTrue ⟨w.flash, []⟩) (hc : CallKeepsMarker w op) :
    MarkersTrue ⟨(step me w op).1.flash, []⟩ := by
  refine Bookkeeping.step markersTrue_bookkeeping forgetSession_markersTrue
    (fun _ => sealContent_markersTrue) (fun message now reference opened hcall => ?_)
    (fun _ => id) h
  have hhand : Triple (fun s => MarkersTrue s ∧ MarkerKept s.durable message opened)
      (handle me message now reference opened) (fun _ => MarkersTrue) MarkersTrue :=
    Bookkeeping.handle markersTrue_bookkeeping forgetSession_markersTrue
      (fun _ hc => onWelcome_markersTrue hc)
      fun body _ => onEncrypted_markersTrue
  refine hhand.pre ?_
  rintro s ⟨hs, hflash⟩
  rw [hflash]
  exact ⟨hs, by simpa only [CallKeepsMarker, hcall] using hc⟩

/-- A true marker refuses no commit. -/
lemma Marked.sequenced {entry : StateEntry} (h : entry.Marked) :
    sequenced entry.marker entry.group.epoch = true := by
  have hjoin := h.joined
  rw [h.marker]
  unfold Group.lastLeft LeafDevice.sequenced
  by_cases hjust : entry.group.epoch = entry.group.welcome.epoch
  · rw [if_pos hjust]
  rw [if_neg hjust]
  exact decide_eq_true (by omega)

/-- After any calls, with any failed operations and power cuts, the marker of a
group is none before the first commit since its join and the last epoch left after
it, and the peer's next commit is not refused. -/
theorem marker_never_wedges (me : LeafIdentity) (ops : List LeafOp)
    (hc : AlongSteps (step me) CallKeepsMarker .new ops) (peer : String) (entry : StateEntry)
    (hentry : get (runSteps (step me) .new ops).1.flash.states peer = some entry) :
    (runSteps (step me) .new ops).1.flash.marker peer = entry.group.lastLeft ∧
      ∀ committer roster, (processIncoming (runSteps (step me) .new ops).1.flash peer entry.group
        (.commit committer roster)).isOk = true := by
  have hnew : MarkersTrue ⟨LeafWorld.new.flash, []⟩ := by
    intro p held hp
    cases hp
  have hrun : MarkersTrue ⟨(runSteps (step me) .new ops).1.flash, []⟩ :=
    runSteps_along (P := fun w => MarkersTrue ⟨w.flash, []⟩) (markersTrue_step me) hc hnew
  have hmark := hrun peer entry hentry
  refine ⟨(marker_eq hentry).trans hmark.marker, fun committer roster => ?_⟩
  simp only [processIncoming, marker_eq hentry, Marked.sequenced hmark, if_true]
  rfl

def markerIdentity : LeafIdentity := ⟨"d", fun _ => true, fun _ => true⟩

def markerRoster : List Member := [⟨0, some "p", true⟩, ⟨1, some "d", true⟩]

def frameOfPeer (content : LeafContent) : LeafMessage :=
  { id := "m", sender := "p", recipient := "d", timestamp := 100000, requiresAck := false,
    signature := .made (some "p") .fresh, content }

def joinOps (reference bytes : String) : List LeafOp :=
  [⟨.keyPackageFrame "p" 100 reference, fun _ => .done⟩,
    ⟨.handle (frameOfPeer (.welcome (some ⟨some "p", "p", some ⟨bytes, [reference], some "p", 1,
      markerRoster, true⟩⟩))) 100 "" .refused, fun _ => .done⟩]

def commitCut (kept : ℕ) : LeafOp :=
  ⟨.handle (frameOfPeer (.encrypted (some ⟨some "p", "p", true⟩))) 100 "" (.commit 0 markerRoster),
    fun n => if n < kept then .done else .cut false⟩

theorem marker_never_wedges_after_a_cut :
    (runSteps (step markerIdentity) .new
        (joinOps "r" "w" ++ [commitCut 9, commitCut 1])).1.flash.marker "p" = some 1 ∧
      ∀ committer roster, (processIncoming (runSteps (step markerIdentity) .new
        (joinOps "r" "w" ++ [commitCut 9, commitCut 1])).1.flash "p"
        ⟨⟨"w", ["r"], some "p", 1, markerRoster, true⟩, 2, 0, markerRoster⟩
        (.commit committer roster)).isOk = true :=
  marker_never_wedges markerIdentity (joinOps "r" "w" ++ [commitCut 9, commitCut 1])
    (by decide +kernel) "p"
    ⟨some 1, ⟨⟨"w", ["r"], some "p", 1, markerRoster, true⟩, 2, 0, markerRoster⟩⟩
    (by decide +kernel)

/-- A session is re-made over one that left an epoch: the marker stays behind, and
the first commit of the new group is refused. -/
theorem rejoin_wedges_the_pair :
    (runSteps (step markerIdentity) .new
        (joinOps "r" "w" ++ [commitCut 9] ++ joinOps "r2" "w2")).1.flash.marker "p" = some 1 ∧
      (get (runSteps (step markerIdentity) .new
        (joinOps "r" "w" ++ [commitCut 9] ++ joinOps "r2" "w2")).1.flash.states "p").map
          (fun entry => entry.group.lastLeft) = some none ∧
      (run markerIdentity (runSteps (step markerIdentity) .new
        (joinOps "r" "w" ++ [commitCut 9] ++ joinOps "r2" "w2")).1.flash (commitCut 9)).1 =
          .raised (.mls "cannot open") := by
  decide +kernel

end LeafDevice

end OfflineProtocol
