import OfflineProtocol.MeshServices
import OfflineProtocol.EventTrace

/-! Discovery over a whole network. Honest nodes answer, relay and pass on as the
registry does; an attacker may send any of them anything under its own name. -/
namespace OfflineProtocol
open EventTrace KeyedTable List MeshServices

structure ServiceMesh where
  honest : NodeName → Bool
  named : honest "" = false
  bytes : ServiceContent → ℕ

structure ServiceFrame where
  sender : NodeName
  recipient : NodeName
  content : ServiceContent
  deriving DecidableEq

/-- The nodes, every frame an honest one sent, what it reported, the query ids it made,
and who sent it which query. -/
structure ServiceNetwork where
  nodes : NodeName → MeshServices
  frames : List ServiceFrame
  events : List (NodeName × DiscoveryEvent)
  issued : List (NodeName × QueryName)
  asked : List (NodeName × NodeName × QueryName)

inductive ServiceStep
  | discover (node : NodeName) (peers : List NodeName) (serviceId : Option ServiceName)
      (queryId : QueryName) (now : ℕ)
  | deliver (frame : ServiceFrame) (hopCount : ℕ) (peers : List NodeName) (now : ℕ)
  | inject (attacker recipient : NodeName) (content : ServiceContent) (hopCount : ℕ)
      (peers : List NodeName) (now : ℕ)
  | register (node : NodeName) (descriptor : ServiceDescriptor)
  | unregister (node : NodeName) (serviceId : ServiceName)
  | cleanup (node : NodeName) (now : ℕ)
  | request (node provider : NodeName) (request : ServiceRequest)
  | respond (node requester : NodeName) (response : ServiceResponse)

def ServiceContent.query : ServiceContent → Option QueryName
  | .discoverQuery (some asked) => some asked.queryId
  | _ => none

namespace ServiceNetwork
variable (net : ServiceNetwork) (node : NodeName)

def started (nodes : NodeName → MeshServices) : ServiceNetwork := ⟨nodes, [], [], [], []⟩

def send (messages : List ServiceMessage) :
    ServiceNetwork :=
  { net with frames := net.frames ++ messages.map fun m => ⟨node, m.recipient, m.content⟩ }

def setNode (s : MeshServices) : ServiceNetwork :=
  { net with nodes := Function.update net.nodes node s }

def receive (mesh : ServiceMesh) (net : ServiceNetwork) (node sender : NodeName)
    (content : ServiceContent) (hopCount : ℕ) (peers : List NodeName) (now : ℕ) :
    ServiceNetwork :=
  let handled := (net.nodes node).handleIncomingMessage mesh.bytes content sender hopCount node
    peers now
  let sent := (net.setNode node handled.2).send node handled.1.messages
  { sent with
    events := net.events ++ handled.1.events.map fun e => (node, e)
    asked := net.asked ++ content.query.toList.map fun q => (node, sender, q) }

/-- The node answers, forwards and reports nothing. -/
def Drops (mesh : ServiceMesh) (sender : NodeName) (content : ServiceContent) (hopCount : ℕ)
    (peers : List NodeName) (now : ℕ) : Prop :=
  let handled := (net.nodes node).handleIncomingMessage mesh.bytes content sender hopCount node
    peers now
  handled.1.messages = [] ∧ handled.1.events = []

/-- A response went to a node that sent its sender the query, or that made the query. -/
def Answered (frame : ServiceFrame) : Prop :=
  ∀ response, frame.content = .discoverResponse (some response) →
    (frame.sender, frame.recipient, response.queryId) ∈ net.asked ∨
      (frame.recipient, response.queryId) ∈ net.issued

/-- A discovery is reported by the node that made the query. -/
def Reported : DiscoveryEvent → Prop
  | .serviceDiscovered queryId _ _ _ _ _ => (node, queryId) ∈ net.issued
  | _ => True

/-- Discovery answers stay on the path of the query. -/
structure OnPath (net : ServiceNetwork) : Prop where
  answered : ∀ frame ∈ net.frames, net.Answered frame
  reported : ∀ report ∈ net.events, net.Reported report.1 report.2

end ServiceNetwork

/-- The originator a frame names made the query it is about. -/
def ServiceContent.Truthful (issued : List (NodeName × QueryName)) : ServiceContent → Prop
  | .discoverQuery (some asked) => (asked.originator, asked.queryId) ∈ issued
  | .discoverResponse (some answer) => (answer.originator, answer.queryId) ∈ issued
  | _ => True

instance (issued : List (NodeName × QueryName)) (content : ServiceContent) :
    Decidable (content.Truthful issued) := by
  cases content with
  | discoverQuery payload => cases payload <;> unfold ServiceContent.Truthful <;> infer_instance
  | discoverResponse payload => cases payload <;> unfold ServiceContent.Truthful <;> infer_instance
  | _ => unfold ServiceContent.Truthful; infer_instance

namespace ServiceMesh
open ServiceNetwork
variable (mesh : ServiceMesh) (net : ServiceNetwork)

def apply : ServiceStep → ServiceNetwork
  | .discover node peers serviceId queryId now =>
    let asked := (net.nodes node).discoverServices node peers serviceId queryId now
    let sent := (net.setNode node asked.2).send node asked.1
    { sent with issued := net.issued ++ [(node, queryId)] }
  | .deliver frame hopCount peers now =>
    net.receive mesh frame.recipient frame.sender frame.content hopCount peers now
  | .inject attacker recipient content hopCount peers now =>
    net.receive mesh recipient attacker content hopCount peers now
  | .register node descriptor => net.setNode node ((net.nodes node).registerService descriptor)
  | .unregister node serviceId => net.setNode node ((net.nodes node).unregisterService serviceId)
  | .cleanup node now => net.setNode node ((net.nodes node).cleanupExpired now)
  | .request node provider request =>
    match sendServiceRequest provider request with
    | .ok message => net.send node [message]
    | .error _ => net
  | .respond node requester response =>
    match respondToServiceRequest requester response with
    | .ok message => net.send node [message]
    | .error _ => net

/-- Frames may be delivered late, in any order and more than once. -/
def enabled : ServiceStep → Prop
  | .discover node _ _ _ _ => mesh.honest node = true
  | .deliver frame _ _ _ => frame ∈ net.frames ∧ mesh.honest frame.recipient = true
  | .inject attacker recipient _ _ _ _ =>
    mesh.honest attacker = false ∧ mesh.honest recipient = true
  | .register node _ => mesh.honest node = true
  | .unregister node _ => mesh.honest node = true
  | .cleanup node _ => mesh.honest node = true
  | .request node _ _ => mesh.honest node = true
  | .respond node _ _ => mesh.honest node = true

instance (mesh : ServiceMesh) (net : ServiceNetwork) (step : ServiceStep) :
    Decidable (mesh.enabled net step) := by
  cases step <;> unfold enabled <;> infer_instance

def machine : Machine ServiceNetwork ServiceStep := ⟨mesh.apply, mesh.enabled⟩

instance (mesh : ServiceMesh) (net : ServiceNetwork) (step : ServiceStep) :
    Decidable (mesh.machine.enabled net step) :=
  inferInstanceAs (Decidable (mesh.enabled net step))

/-- The attacker names no originator but the node that made the query, unless the recipient
makes nothing of the frame. -/
def Unforged : ServiceStep → Prop
  | .inject attacker recipient content hopCount peers now =>
    net.Drops recipient mesh attacker content hopCount peers now ∨ content.Truthful net.issued
  | _ => True

instance (mesh : ServiceMesh) (net : ServiceNetwork) (step : ServiceStep) :
    Decidable (mesh.Unforged net step) := by
  cases step <;> unfold Unforged <;> (try unfold Drops) <;> infer_instance

end ServiceMesh

namespace MeshServices
variable {s : MeshServices} {bytes : ServiceContent → ℕ} {content : ServiceContent}
  {sender node : NodeName} {hopCount now : ℕ} {peers : List NodeName}
  {issued : List (NodeName × QueryName)}

structure Safe (issued : List (NodeName × QueryName)) (content : ServiceContent) (sender : NodeName)
    (m : ServiceMessage) : Prop where
  truthful : m.content.Truthful issued
  answered : ∀ response, m.content = .discoverResponse (some response) →
    (content.query = some response.queryId ∧ m.recipient = sender) ∨
      (m.recipient, response.queryId) ∈ issued

lemma answers_safe (h : (query.originator, query.queryId) ∈ issued)
    (hm : m ∈ s.answers query sender hopCount node) :
    Safe issued (.discoverQuery (some query)) sender m := by
  obtain ⟨svc, -, rfl⟩ := mem_map.1 hm
  refine ⟨h, fun response hresp => .inl ⟨?_, rfl⟩⟩
  have heq := Option.some.inj (ServiceContent.discoverResponse.inj hresp)
  rw [← heq]
  rfl

lemma forwards_safe (h : (query.originator, query.queryId) ∈ issued)
    (hm : m ∈ forwards query sender node peers) :
    Safe issued (.discoverQuery (some query)) sender m := by
  unfold forwards at hm
  split at hm
  · obtain ⟨peer, -, rfl⟩ := mem_map.1 hm
    exact ⟨h, nofun⟩
  · cases hm

lemma handled_safe (h : content.Truthful issued)
    (hm : m ∈ (s.handleIncomingMessage bytes content sender hopCount node peers now).1.messages) :
    Safe issued content sender m := by
  by_cases hsize : maxServicePayloadSize < bytes content
  · simp [handleIncomingMessage, if_pos hsize, Consumed.nothing] at hm
  simp only [handleIncomingMessage, if_neg hsize] at hm
  cases content with
  | discoverQuery payload =>
    cases payload with
    | none => cases hm
    | some query =>
      simp only [handleDiscoverQuery] at hm
      split at hm
      · cases hm
      rcases mem_append.1 hm with hm | hm
      · exact answers_safe h hm
      · exact forwards_safe h hm
  | discoverResponse payload =>
    cases payload with
    | none => cases hm
    | some response =>
      simp only [handleDiscoverResponse] at hm
      split at hm
      · rw [mem_singleton.1 hm]
        refine ⟨h, fun response' hresp => .inr ?_⟩
        have heq := Option.some.inj (ServiceContent.discoverResponse.inj hresp)
        rw [← heq]
        exact h
      · cases hm
  | request payload =>
    cases payload with
    | none => cases hm
    | some request =>
      simp only [handleRequest] at hm
      split_ifs at hm
      · cases hm
      · cases hm
      · cases hm
      rw [mem_singleton.1 hm]
      exact ⟨True.intro, nofun⟩
  | response payload =>
    cases payload with
    | none => cases hm
    | some response =>
      simp only [handleResponse] at hm
      split_ifs at hm <;> cases hm
  | other => cases hm

/-- A handler reports a discovery only to the node that made the query. -/
lemma handled_reported (h : content.Truthful issued) (hnode : ∀ q, ("", q) ∉ issued)
    (he : .serviceDiscovered queryId serviceId version provider capabilities hops ∈
      (s.handleIncomingMessage bytes content sender hopCount node peers now).1.events) :
    (node, queryId) ∈ issued := by
  by_cases hsize : maxServicePayloadSize < bytes content
  · simp [handleIncomingMessage, if_pos hsize, Consumed.nothing] at he
  simp only [handleIncomingMessage, if_neg hsize] at he
  cases content with
  | discoverQuery payload =>
    cases payload with
    | none => cases he
    | some query =>
      simp only [handleDiscoverQuery] at he
      split at he <;> cases he
  | discoverResponse payload =>
    cases payload with
    | none => cases he
    | some response =>
      simp only [handleDiscoverResponse] at he
      split at he
      · cases he
      rename_i hmine
      have hin : (response.originator, response.queryId) ∈ issued := h
      -- The originator is the node itself: the nameless one made no query.
      have horigin : response.originator = node := by
        by_contra hne
        refine hmine ⟨fun hempty => ?_, hne⟩
        rw [hempty] at hin
        exact hnode response.queryId hin
      have heq := mem_singleton.1 he
      injection heq with hquery
      rw [hquery, ← horigin]
      exact hin
  | request payload =>
    cases payload with
    | none => cases he
    | some request =>
      simp only [handleRequest] at he
      split_ifs at he <;> simp [Consumed.nothing] at he
  | response payload =>
    cases payload with
    | none => cases he
    | some response =>
      simp only [handleResponse] at he
      split_ifs at he <;> simp [Consumed.nothing] at he
  | other => cases he

end MeshServices

lemma ServiceContent.Truthful.mono
    {content : ServiceContent} (h : content.Truthful issued) (hsub : issued ⊆ issued') :
    content.Truthful issued' := by
  cases content with
  | discoverQuery payload =>
    cases payload with
    | none => exact h
    | some query => exact hsub h
  | discoverResponse payload =>
    cases payload with
    | none => exact h
    | some response => exact hsub h
  | _ => exact h

namespace ServiceNetwork
variable {mesh : ServiceMesh} {net : ServiceNetwork}

structure Sound (mesh : ServiceMesh) (net : ServiceNetwork) : Prop extends OnPath net where
  truthful : ∀ frame ∈ net.frames, frame.content.Truthful net.issued
  makers : ∀ made ∈ net.issued, mesh.honest made.1 = true

section
variable (h : net.Sound mesh)
include h

lemma Sound.nameless (q) : ("", q) ∉ net.issued := by
  intro hin
  have hhon := h.makers _ hin
  rw [mesh.named] at hhon
  cases hhon

lemma Sound.setNode (node s) : (net.setNode node s).Sound mesh :=
  ⟨⟨h.answered, h.reported⟩, h.truthful, h.makers⟩

lemma Sound.send {node} (hm : ∀ m ∈ messages, m.content.Truthful net.issued ∧
      ∀ response, m.content ≠ .discoverResponse (some response)) :
    (net.send node messages).Sound mesh := by
  refine ⟨⟨fun frame hframe => ?_, h.reported⟩, fun frame hframe => ?_, h.makers⟩
  · rcases mem_append.1 hframe with hold | hnew
    · exact h.answered frame hold
    obtain ⟨m, hin, rfl⟩ := mem_map.1 hnew
    exact fun response heq => absurd heq ((hm m hin).2 response)
  · rcases mem_append.1 hframe with hold | hnew
    · exact h.truthful frame hold
    obtain ⟨m, hin, rfl⟩ := mem_map.1 hnew
    exact (hm m hin).1

lemma Sound.receive {hopCount : ℕ} {peers now}
    (hcont : net.Drops node mesh sender content hopCount peers now ∨
      content.Truthful net.issued) :
    (net.receive mesh node sender content hopCount peers now).Sound mesh := by
  have hsafe {m} (hin : m ∈ ((net.nodes node).handleIncomingMessage mesh.bytes content sender
      hopCount node peers now).1.messages) : Safe net.issued content sender m :=
    hcont.elim (fun hdrops => absurd (hdrops.1 ▸ hin) not_mem_nil) (handled_safe · hin)
  constructor
  · constructor
    · intro frame hframe response hresp
      rcases mem_append.1 hframe with hold | hnew
      · exact (h.answered frame hold response hresp).imp_left fun hin =>
          mem_append_left _ hin
      obtain ⟨m, hin, rfl⟩ := mem_map.1 hnew
      rcases (hsafe hin).answered response hresp with
        ⟨hquery, hrecipient⟩ | hissued
      · refine .inl (mem_append_right _ ?_)
        rw [hquery, hrecipient]
        exact mem_singleton.2 rfl
      · exact .inr hissued
    · intro report hreport
      rcases mem_append.1 hreport with hold | hnew
      · exact h.reported report hold
      obtain ⟨event, hin, rfl⟩ := mem_map.1 hnew
      cases event with
      | serviceDiscovered queryId serviceId version provider capabilities hops =>
        exact hcont.elim (fun hdrops => absurd (hdrops.2 ▸ hin) not_mem_nil)
          (handled_reported · h.nameless hin)
      | _ => exact True.intro
  · intro frame hframe
    rcases mem_append.1 hframe with hold | hnew
    · exact h.truthful frame hold
    obtain ⟨m, hin, rfl⟩ := mem_map.1 hnew
    exact (hsafe hin).truthful
  · exact h.makers

lemma Sound.issue {node} (hnode : mesh.honest node = true) (queryId) :
    ({ net with issued := net.issued ++ [(node, queryId)] } : ServiceNetwork).Sound mesh := by
  have hsub : net.issued ⊆ net.issued ++ [(node, queryId)] := subset_append_left _ _
  constructor
  · constructor
    · intro frame hframe response hresp
      exact (h.answered frame hframe response hresp).imp_right fun hin => hsub hin
    intro report hreport
    have hold := h.reported report hreport
    obtain ⟨reporter, event⟩ := report
    cases event with
    | serviceDiscovered => exact hsub hold
    | _ => exact True.intro
  · exact fun frame hframe => (h.truthful frame hframe).mono hsub
  · exact forall_mem_append.2 ⟨h.makers, forall_mem_singleton.2 hnode⟩

end

end ServiceNetwork

namespace ServiceMesh
open ServiceNetwork
variable {mesh : ServiceMesh} {net : ServiceNetwork}

lemma sound_step (h : net.Sound mesh) (he : mesh.enabled net step)
    (hc : mesh.Unforged net step) : (mesh.apply net step).Sound mesh := by
  cases step with
  | discover node peers serviceId queryId now =>
    have hissued := (h.issue he queryId).setNode node
      ((net.nodes node).discoverServices node peers serviceId queryId now).2
    refine hissued.send fun m hm => ?_
    obtain ⟨peer, -, rfl⟩ := mem_map.1 hm
    refine ⟨?_, nofun⟩
    exact mem_append_right _ (mem_singleton.2 rfl)
  | deliver frame hopCount peers now =>
    exact h.receive (.inr (h.truthful frame he.1))
  | inject attacker recipient content hopCount peers now =>
    exact h.receive hc
  | register node descriptor => exact h.setNode node _
  | unregister node serviceId => exact h.setNode node _
  | cleanup node now => exact h.setNode node _
  | request node provider request =>
    unfold apply
    dsimp only
    unfold sendServiceRequest
    split_ifs
    · exact h
    · exact h
    exact h.send (forall_mem_singleton.2 ⟨True.intro, nofun⟩)
  | respond node requester response =>
    unfold apply
    dsimp only
    unfold respondToServiceRequest
    split_ifs
    · exact h
    · exact h.send (forall_mem_singleton.2 ⟨True.intro, nofun⟩)
    · exact h

/-- In a network whose attacker names only true originators in what is not dropped, a
discovery response goes to a node that sent the query or made it, and only the node that
made a query reports its answers. -/
theorem answers_stay_on_path (nodes : NodeName → MeshServices) {steps : List ServiceStep}
    (h : mesh.machine.Runs (started nodes) steps net)
    (hforged : mesh.machine.Along mesh.Unforged (started nodes) steps) : net.OnPath := by
  have hstart : (started nodes).Sound mesh :=
    ⟨⟨by simp [started], by simp [started]⟩, by simp [started], by simp [started]⟩
  have hsound := h.invariant (I := fun net => net.Sound mesh)
    (fun net step hnet he hc => sound_step hnet he hc) hforged hstart
  exact hsound.toOnPath

def village : ServiceMesh where
  honest node := node ∈ ["anna", "relay", "provider", "victim"]
  named := by decide
  bytes _ := 0

def weather : ServiceDescriptor := ⟨"weather", "1.0", []⟩

def relayed (originator : NodeName) : DiscoveryQuery := ⟨"q", originator, none, 9⟩

def found (originator : NodeName) : DiscoveryResponse :=
  ⟨"q", "weather", "1.0", "provider", [], 1, originator⟩

def relaying (originator : NodeName) : List ServiceStep :=
  [.deliver ⟨"relay", "provider", .discoverQuery (some (relayed originator))⟩ 1 [] 0,
    .deliver ⟨"provider", "relay", .discoverResponse (some (found originator))⟩ 1 [] 0,
    .deliver ⟨"relay", originator, .discoverResponse (some (found originator))⟩ 1 [] 0]

def annaAsks : List ServiceStep :=
  [.register "provider" weather, .discover "anna" ["relay"] none "q" 0,
    .deliver ⟨"anna", "relay", .discoverQuery (some ⟨"q", "anna", none, 10⟩)⟩ 0 ["provider"] 0] ++
    relaying "anna"

theorem answers_stay_on_path_relayed :
    (village.machine.replay (started fun _ => .new) annaAsks).OnPath ∧
      ("anna", .serviceDiscovered "q" "weather" "1.0" "provider" [] 1) ∈
        (village.machine.replay (started fun _ => .new) annaAsks).events :=
  ⟨answers_stay_on_path (fun _ => .new) ⟨rfl, by decide +kernel⟩ (by decide +kernel),
    by decide +kernel⟩

def malloryAsks : List ServiceStep :=
  [.register "provider" weather,
    .inject "mallory" "relay" (.discoverQuery (some ⟨"q", "victim", none, 10⟩)) 0 ["provider"] 0] ++
    relaying "victim"

/-- The list of a provider reaches a node that never asked for it, which then reports an
answer to a query it never made. -/
theorem forged_originator_leaks_services :
    village.machine.Runs (started fun _ => .new) malloryAsks
        (village.machine.replay (started fun _ => .new) malloryAsks) ∧
      ¬(village.machine.replay (started fun _ => .new) malloryAsks).Answered
        ⟨"relay", "victim", .discoverResponse (some (found "victim"))⟩ ∧
      ⟨"relay", "victim", .discoverResponse (some (found "victim"))⟩ ∈
        (village.machine.replay (started fun _ => .new) malloryAsks).frames ∧
      ("victim", .serviceDiscovered "q" "weather" "1.0" "provider" [] 1) ∈
        (village.machine.replay (started fun _ => .new) malloryAsks).events ∧
      (village.machine.replay (started fun _ => .new) malloryAsks).issued = [] := by
  refine ⟨⟨rfl, by decide +kernel⟩, fun h => ?_, by decide +kernel, by decide +kernel,
    by decide +kernel⟩
  have hasked := h (found "victim") rfl
  revert hasked
  decide +kernel

end ServiceMesh

end OfflineProtocol
