import FlowCache.Gateway.Confinement

/-!
# Forwarding in steps and at once

In the cluster a request is forwarded a step at a time, while other requests, status
changes, late arrivals and replication go on.  What the gateway answers is nevertheless what
one call of `forwardWithFailover` returns: with the ring the gateway had when it accepted the
request, and an action that answers for each node it is called on what this node answered
when the request reached it, or that the node is unavailable.
-/

namespace FlowCache

open Transition

/-! ## The loop over the candidates -/

namespace ConsistentHashRing

variable {Body : Type}

/-- The loop goes on after an error that is not about the key. -/
def GoesOn : Except ForwardError Body → Prop
  | .ok _ => False
  | .error (.keyNotFound _) => False
  | .error _ => True

theorem tryCandidates_of_goesOn {action : NodeInfo → Except ForwardError Body}
    {tried : List NodeInfo} (failed : ∀ node ∈ tried, GoesOn (action node))
    (lastError : ForwardError) (rest : List NodeInfo) :
    ∃ last, tryCandidates action lastError (tried ++ rest) =
      (tried ++ (tryCandidates action last rest).1, (tryCandidates action last rest).2) := by
  induction tried generalizing lastError with
  | nil => exact ⟨lastError, rfl⟩
  | cons node others ih =>
      have goesOn := failed node List.mem_cons_self
      rw [List.cons_append, tryCandidates]
      split
      · next answered => exact absurd goesOn (by simp [GoesOn, answered])
      · next missing => exact absurd goesOn (by simp [GoesOn, missing])
      · next error _ _ =>
          obtain ⟨last, same⟩ :=
            ih (fun other member => failed other (List.mem_cons_of_mem _ member)) error
          exact ⟨last, by rw [same]; rfl⟩

/-- A node at which the loop ends is the last one it tries. -/
theorem tryCandidates_cons_of_end {action : NodeInfo → Except ForwardError Body}
    {node : NodeInfo} {rest : List NodeInfo}
    (ends : GoesOn (action node) → rest = []) (lastError : ForwardError) :
    tryCandidates action lastError (node :: rest) = ([node], action node) := by
  rw [tryCandidates]
  split
  · next body answered => rw [answered]
  · next key missing => rw [missing]
  · next error other failed =>
      have goesOn : GoesOn (action node) := by
        rw [failed]
        cases error with
        | keyNotFound key => exact absurd rfl (other key)
        | noHealthyNodes => trivial
        | nodeFailure message => trivial
      rw [ends goesOn, failed]
      rfl

theorem Consistent.nodup_failoverCandidates {ring : ConsistentHashRing}
    (consistent : ring.Consistent) (count : Int) (key : CacheKey) :
    (ring.failoverCandidates count key).Nodup := by
  apply List.Nodup.filter
  apply (consistent.replicaList key count).nodup.filterMap
  intro first second info found same
  rw [← consistent.nodeId_eq found, consistent.nodeId_eq same]

end ConsistentHashRing

/-! ## One request -/

namespace Cluster

open ConsistentHashRing

/-- The gateway's route as the source has it: one call of `forwardWithFailover`. -/
def serveAtOnce (ring : ConsistentHashRing)
    (action : NodeInfo → Except ForwardError NodeAnswer) (request : ClientRequest) :
    List NodeInfo × Except GatewayError NodeAnswer :=
  match request.routingKey with
  | .error error => ([], .error (.own error))
  | .ok key =>
      let forwarded := ring.forwardWithFailover failoverCandidateCount key action
      (forwarded.1, forwarded.2.mapError .forwarding)

/-- The node handled the request with this outcome, or the gateway gave up on it. -/
def Told (log : List Handling) (request : ClientRequest) (node : NodeInfo)
    (outcome : Except ForwardError NodeAnswer) : Prop :=
  (∃ now, (⟨node.nodeId, now, request, outcome⟩ : Handling) ∈ log) ∨
    outcome = .error (nodeUnavailable node.nodeId)

theorem Told.mono {log later : List Handling} (more : log ⊆ later) {request : ClientRequest}
    {node : NodeInfo} {outcome : Except ForwardError NodeAnswer}
    (told : Told log request node outcome) : Told later request node outcome := by
  rcases told with ⟨now, member⟩ | unavailable
  · exact .inl ⟨now, more member⟩
  · exact .inr unavailable

/-- The answer is that of a call at once, whose action answers what the nodes did. -/
def AsAtOnce (ring : ConsistentHashRing) (log : List Handling) (request : ClientRequest)
    (answer : Except GatewayError NodeAnswer) : Prop :=
  ∃ action, answer = (serveAtOnce ring action request).2 ∧
    ∀ node ∈ (serveAtOnce ring action request).1, Told log request node (action node)

/-- The candidates before those that are left have failed. -/
structure UnderWay (ring : ConsistentHashRing) (log : List Handling)
    (forwarding : Forwarding) (key : CacheKey) (tried : List NodeInfo)
    (action : NodeInfo → Except ForwardError NodeAnswer) : Prop where
  routed : forwarding.request.routingKey = .ok key
  candidates : ring.failoverCandidates failoverCandidateCount key =
    tried ++ forwarding.candidates
  nodup : (tried ++ forwarding.candidates).Nodup
  failed : ∀ node ∈ tried, GoesOn (action node)
  told : ∀ node ∈ tried, Told log forwarding.request node (action node)

theorem UnderWay.mono {ring : ConsistentHashRing} {log later : List Handling}
    (more : log ⊆ later) {forwarding : Forwarding} {key : CacheKey} {tried : List NodeInfo}
    {action : NodeInfo → Except ForwardError NodeAnswer}
    (underWay : UnderWay ring log forwarding key tried action) :
    UnderWay ring later forwarding key tried action :=
  { underWay with told := fun node member => (underWay.told node member).mono more }

theorem AsAtOnce.mono {ring : ConsistentHashRing} {log later : List Handling}
    (more : log ⊆ later) {request : ClientRequest} {answer : Except GatewayError NodeAnswer}
    (asAtOnce : AsAtOnce ring log request answer) : AsAtOnce ring later request answer := by
  obtain ⟨action, same, told⟩ := asAtOnce
  exact ⟨action, same, fun node member => (told node member).mono more⟩

section Proceed

variable {ring : ConsistentHashRing} {log : List Handling} {request : ClientRequest}
variable {node : NodeInfo} {rest : List NodeInfo} {key : CacheKey} {tried : List NodeInfo}
variable {action : NodeInfo → Except ForwardError NodeAnswer}
variable {outcome : Except ForwardError NodeAnswer}

theorem UnderWay.update_eq (underWay : UnderWay ring log ⟨request, node :: rest⟩ key tried action)
    {other : NodeInfo} (member : other ∈ tried) :
    Function.update action node outcome other = action other := by
  apply Function.update_of_ne
  rintro rfl
  exact (List.nodup_append.mp underWay.nodup).2.2 other member other List.mem_cons_self rfl

/-- What is known of the nodes tried so far and the one that is asked now. -/
theorem UnderWay.told_update
    (underWay : UnderWay ring log ⟨request, node :: rest⟩ key tried action)
    (told : Told log request node outcome) :
    ∀ other ∈ tried ++ [node],
      Told log request other (Function.update action node outcome other) := by
  intro other member
  rcases List.mem_append.mp member with earlier | last
  · rw [underWay.update_eq earlier]
    exact underWay.told other earlier
  · rw [List.mem_singleton.mp last, Function.update_self]
    exact told

/-- The node that is asked fails, and the next candidate is asked. -/
theorem UnderWay.goOn (underWay : UnderWay ring log ⟨request, node :: rest⟩ key tried action)
    (told : Told log request node outcome) (goesOn : GoesOn outcome) :
    UnderWay ring log ⟨request, rest⟩ key (tried ++ [node])
      (Function.update action node outcome) where
  routed := underWay.routed
  candidates := by
    rw [underWay.candidates, List.append_assoc]
    rfl
  nodup := by
    rw [List.append_assoc]
    exact underWay.nodup
  failed := by
    intro other member
    rcases List.mem_append.mp member with earlier | last
    · rw [underWay.update_eq earlier]
      exact underWay.failed other earlier
    · rw [List.mem_singleton.mp last, Function.update_self]
      exact goesOn
  told := underWay.told_update told

/-- The node that is asked is the last one that matters. -/
theorem UnderWay.finish (underWay : UnderWay ring log ⟨request, node :: rest⟩ key tried action)
    (told : Told log request node outcome) (ends : GoesOn outcome → rest = []) :
    AsAtOnce ring log request (outcome.mapError .forwarding) := by
  have failed : ∀ other ∈ tried, GoesOn (Function.update action node outcome other) := by
    intro other member
    rw [underWay.update_eq member]
    exact underWay.failed other member
  obtain ⟨last, loop⟩ := tryCandidates_of_goesOn failed .noHealthyNodes (node :: rest)
  rw [tryCandidates_cons_of_end (by rw [Function.update_self]; exact ends),
    Function.update_self] at loop
  have forwarded : ring.forwardWithFailover failoverCandidateCount key
      (Function.update action node outcome) = (tried ++ [node], outcome) := by
    rw [forwardWithFailover, underWay.candidates, if_neg (by simp)]
    exact loop
  refine ⟨Function.update action node outcome, ?_, ?_⟩
  · simp only [serveAtOnce, underWay.routed, forwarded]
  · simp only [serveAtOnce, underWay.routed, forwarded]
    exact underWay.told_update told

end Proceed

/-! ## Whole runs -/

section Runs

variable {Hook : Type} [EvictionHook Hook] [SizedValue JsonValue]

/-- The request was accepted at some point of the run, and something holds of the ring of
the gateway then and of what the nodes have handled since. -/
def SinceAccepted (setup : ClusterSetup Hook) (origin : Cluster Hook)
    (actions : List ClusterAction) (request : ClientRequest)
    (holds : ConsistentHashRing → List Handling → Prop) : Prop :=
  ∃ earlier later, actions = earlier ++ .accept request :: later ∧
    holds (run (step setup) origin earlier).ring
      ((run (step setup) origin actions).log.drop (run (step setup) origin earlier).log.length)

/-- Where the requests under way stand, and what the others were answered. -/
structure Traced (setup : ClusterSetup Hook) (origin : Cluster Hook)
    (actions : List ClusterAction) : Prop where
  inFlight : ∀ forwarding ∈ (run (step setup) origin actions).inFlight,
    SinceAccepted setup origin actions forwarding.request fun ring log =>
      ∃ key tried action, UnderWay ring log forwarding key tried action
  answers : ∀ request answer, (request, answer) ∈ (run (step setup) origin actions).answers →
    SinceAccepted setup origin actions request fun ring log =>
      AsAtOnce ring log request answer

omit [EvictionHook Hook] [SizedValue JsonValue] in
theorem log_goOn (cluster : Cluster Hook) (index : Nat) (request : ClientRequest)
    (rest : List NodeInfo) (lastError : ForwardError) :
    (cluster.goOn index request rest lastError).log = cluster.log := by
  cases rest <;> rfl

omit [EvictionHook Hook] [SizedValue JsonValue] in
theorem log_afterAnswer (cluster : Cluster Hook) (index : Nat) (request : ClientRequest)
    (rest : List NodeInfo) (outcome : Except ForwardError NodeAnswer) :
    (cluster.afterAnswer index request rest outcome).log = cluster.log := by
  unfold afterAnswer
  split
  · rfl
  · rfl
  · exact log_goOn _ _ _ _ _

/-- The log only grows. -/
theorem log_step (setup : ClusterSetup Hook) (cluster : Cluster Hook) (action : ClusterAction) :
    cluster.log <+: (cluster.step setup action).log := by
  cases action with
  | accept request =>
      simp only [step, acceptRequest]
      split
      · exact List.prefix_refl _
      · split <;> exact List.prefix_refl _
  | arrive index eventId =>
      simp only [step]
      split
      · rw [log_afterAnswer]
        exact List.prefix_append _ _
      · exact List.prefix_refl _
  | giveUp index =>
      simp only [step]
      split
      · rw [log_goOn]
      · exact List.prefix_refl _
  | strayArrives index eventId =>
      simp only [step]
      split
      · exact List.prefix_append _ _
      · exact List.prefix_refl _
  | deliver nodeId index =>
      simp only [step]
      split <;> exact List.prefix_refl _
  | restore nodeId index =>
      simp only [step]
      split
      · split <;> exact List.prefix_refl _
      · exact List.prefix_refl _
  | setStatus | tick | remove | capture | crash | clear => exact List.prefix_refl _

theorem log_run (setup : ClusterSetup Hook) (cluster : Cluster Hook)
    (actions : List ClusterAction) : cluster.log <+: (run (step setup) cluster actions).log :=
  @run_invariant _ _ _ (fun next => cluster.log <+: next.log) _
    (fun next action grown => grown.trans (log_step setup next action))
    (List.prefix_refl _) actions

/-- What was known before an action is known after it. -/
theorem SinceAccepted.later {setup : ClusterSetup Hook} {origin : Cluster Hook}
    {actions : List ClusterAction} {request : ClientRequest}
    {holds next : ConsistentHashRing → List Handling → Prop}
    (since : SinceAccepted setup origin actions request holds) (action : ClusterAction)
    (mono : ∀ ring log more, holds ring log →
      (run (step setup) origin (actions ++ [action])).log =
        (run (step setup) origin actions).log ++ more → next ring (log ++ more)) :
    SinceAccepted setup origin (actions ++ [action]) request next := by
  obtain ⟨earlier, later, rfl, known⟩ := since
  refine ⟨earlier, later ++ [action], by simp, ?_⟩
  have before := log_run setup (run (step setup) origin earlier) (.accept request :: later)
  have after := log_step setup (run (step setup) origin (earlier ++ .accept request :: later))
    action
  obtain ⟨more, grown⟩ := after
  have grownRun :
      (run (step setup) origin ((earlier ++ .accept request :: later) ++ [action])).log =
      (run (step setup) origin (earlier ++ .accept request :: later)).log ++ more := by
    rw [run_append, run_cons, run_nil, grown]
  rw [← run_append] at before
  rw [grownRun, List.drop_append_of_le_length before.length_le]
  exact mono _ _ more known grownRun

omit [EvictionHook Hook] [SizedValue JsonValue] in
/-- The answer of a node ends the forwarding, or the next candidate is asked. -/
theorem afterAnswer_cases (cluster : Cluster Hook) (index : Nat) (request : ClientRequest)
    (rest : List NodeInfo) (outcome : Except ForwardError NodeAnswer) :
    ((GoesOn outcome → rest = []) ∧ cluster.afterAnswer index request rest outcome =
        { cluster with inFlight := cluster.inFlight.eraseIdx index }.answering request
          (outcome.mapError .forwarding)) ∨
      (GoesOn outcome ∧ cluster.afterAnswer index request rest outcome =
        { cluster with inFlight := cluster.inFlight.set index ⟨request, rest⟩ }) := by
  have goesOn : ∀ error, afterAnswer cluster index request rest (.error error) =
        cluster.goOn index request rest error →
      GoesOn (.error error : Except ForwardError NodeAnswer) →
      ((GoesOn (.error error : Except ForwardError NodeAnswer) → rest = []) ∧
        cluster.afterAnswer index request rest (.error error) =
          { cluster with inFlight := cluster.inFlight.eraseIdx index }.answering request
            (.error (.forwarding error))) ∨
      (GoesOn (.error error : Except ForwardError NodeAnswer) ∧
        cluster.afterAnswer index request rest (.error error) =
          { cluster with inFlight := cluster.inFlight.set index ⟨request, rest⟩ }) := by
    intro error same goes
    rw [same]
    cases rest with
    | nil => exact .inl ⟨fun _ => rfl, rfl⟩
    | cons next others => exact .inr ⟨goes, rfl⟩
  cases outcome with
  | ok answer => exact .inl ⟨fun impossible => impossible.elim, rfl⟩
  | error error =>
      cases error with
      | keyNotFound key => exact .inl ⟨fun impossible => impossible.elim, rfl⟩
      | noHealthyNodes => exact goesOn _ rfl trivial
      | nodeFailure message => exact goesOn _ rfl trivial

namespace Traced

variable {setup : ClusterSetup Hook} {origin : Cluster Hook} {actions : List ClusterAction}

/-- What stays in flight or answered stays traced. -/
theorem of_new (traced : Traced setup origin actions) {action : ClusterAction}
    (inFlight : ∀ forwarding ∈ (run (step setup) origin (actions ++ [action])).inFlight,
      forwarding ∈ (run (step setup) origin actions).inFlight ∨
        SinceAccepted setup origin (actions ++ [action]) forwarding.request fun ring log =>
          ∃ key tried action, UnderWay ring log forwarding key tried action)
    (answers : ∀ request answer,
      (request, answer) ∈ (run (step setup) origin (actions ++ [action])).answers →
        (request, answer) ∈ (run (step setup) origin actions).answers ∨
          SinceAccepted setup origin (actions ++ [action]) request fun ring log =>
            AsAtOnce ring log request answer) :
    Traced setup origin (actions ++ [action]) := by
  constructor
  · intro forwarding member
    rcases inFlight forwarding member with before | new
    · refine (traced.inFlight forwarding before).later action ?_
      rintro ring log more ⟨key, tried, known, underWay⟩ -
      exact ⟨key, tried, known, underWay.mono (List.subset_append_left _ _)⟩
    · exact new
  · intro request answer member
    rcases answers request answer member with before | new
    · refine (traced.answers request answer before).later action ?_
      rintro ring log more asAtOnce -
      exact asAtOnce.mono (List.subset_append_left _ _)
    · exact new

/-- An action that neither accepts a request nor brings an answer. -/
theorem of_same (traced : Traced setup origin actions) {action : ClusterAction}
    (inFlight : ((run (step setup) origin actions).step setup action).inFlight =
      (run (step setup) origin actions).inFlight)
    (answers : ((run (step setup) origin actions).step setup action).answers =
      (run (step setup) origin actions).answers) :
    Traced setup origin (actions ++ [action]) := by
  apply traced.of_new
  · intro forwarding member
    rw [run_append, run_cons, run_nil, inFlight] at member
    exact .inl member
  · intro request answer member
    rw [run_append, run_cons, run_nil, answers] at member
    exact .inl member

/-- The outcome at a node reaches the gateway, which tells the client or goes on. -/
theorem afterAnswer (traced : Traced setup origin actions) {action : ClusterAction}
    {index : Nat} {request : ClientRequest} {node : NodeInfo} {rest : List NodeInfo}
    (asked : (run (step setup) origin actions).inFlight[index]? =
      some ⟨request, node :: rest⟩)
    (between : Cluster Hook) (outcome : Except ForwardError NodeAnswer)
    (stepped : (run (step setup) origin actions).step setup action =
      between.afterAnswer index request rest outcome)
    (inFlight : between.inFlight = (run (step setup) origin actions).inFlight)
    (answers : between.answers = (run (step setup) origin actions).answers)
    (told : ∀ more, between.log = (run (step setup) origin actions).log ++ more →
      Told more request node outcome) : Traced setup origin (actions ++ [action]) := by
  have stepRun : run (step setup) origin (actions ++ [action]) =
      between.afterAnswer index request rest outcome := by
    rw [run_append, run_cons, run_nil, stepped]
  have waiting := traced.inFlight _ (List.mem_of_getElem? asked)
  have toldLater : ∀ log more, (run (step setup) origin (actions ++ [action])).log =
      (run (step setup) origin actions).log ++ more → Told (log ++ more) request node outcome := by
    intro log more grown
    rw [stepRun, log_afterAnswer] at grown
    exact (told more grown).mono (List.subset_append_right _ _)
  rcases afterAnswer_cases between index request rest outcome with
    ⟨ends, answered⟩ | ⟨goes, next⟩
  · apply traced.of_new
    · intro forwarding member
      rw [stepRun, answered] at member
      exact .inl (inFlight ▸ List.mem_of_mem_eraseIdx member)
    · intro other answer member
      rw [stepRun, answered] at member
      rcases List.mem_append.mp member with before | last
      · exact .inl (answers ▸ before)
      · cases List.mem_singleton.mp last
        right
        refine waiting.later action ?_
        rintro ring log more ⟨key, tried, known, underWay⟩ grown
        exact (underWay.mono (List.subset_append_left _ _)).finish (toldLater log more grown) ends
  · apply traced.of_new
    · intro forwarding member
      rw [stepRun, next] at member
      rcases List.mem_or_eq_of_mem_set member with before | rfl
      · exact .inl (inFlight ▸ before)
      · right
        refine waiting.later action ?_
        rintro ring log more ⟨key, tried, known, underWay⟩ grown
        exact ⟨key, _, _,
          (underWay.mono (List.subset_append_left _ _)).goOn (toldLater log more grown) goes⟩
    · intro other answer member
      rw [stepRun, next] at member
      exact .inl (answers ▸ member)

/-- A request that is accepted now. -/
theorem sinceAccepted_now {request : ClientRequest}
    {holds : ConsistentHashRing → List Handling → Prop}
    (now : ∀ log, holds (run (step setup) origin actions).ring log) :
    SinceAccepted setup origin (actions ++ [.accept request]) request holds :=
  ⟨actions, [], rfl, now _⟩

theorem accept (traced : Traced setup origin actions)
    (consistent : (run (step setup) origin actions).ring.Consistent) (request : ClientRequest) :
    Traced setup origin (actions ++ [.accept request]) := by
  obtain ⟨cluster, same⟩ : ∃ cluster, cluster = run (step setup) origin actions := ⟨_, rfl⟩
  have stepRun : run (step setup) origin (actions ++ [.accept request]) =
      cluster.acceptRequest request := by
    rw [run_append, run_cons, run_nil, same]
    rfl
  have refused : ∀ answer, cluster.acceptRequest request = cluster.answering request answer →
      (∀ action, serveAtOnce cluster.ring action request = ([], answer)) →
      Traced setup origin (actions ++ [.accept request]) := by
    intro answer answered atOnce
    apply traced.of_new
    · intro forwarding member
      rw [stepRun, answered] at member
      exact .inl (same ▸ member)
    · intro other told member
      rw [stepRun, answered] at member
      rcases List.mem_append.mp member with before | last
      · exact .inl (same ▸ before)
      · cases List.mem_singleton.mp last
        refine .inr (sinceAccepted_now fun log => ?_)
        rw [← same]
        refine ⟨fun node => .error (nodeUnavailable node.nodeId), ?_, ?_⟩
        · rw [atOnce]
        · intro node impossible
          rw [atOnce] at impossible
          cases impossible
  cases routed : request.routingKey with
  | error error =>
      apply refused (.error (.own error))
      · simp only [acceptRequest, routed]
      · intro action
        simp only [serveAtOnce, routed]
  | ok key =>
      cases chosen : cluster.ring.failoverCandidates failoverCandidateCount key with
      | nil =>
          apply refused (.error (.forwarding .noHealthyNodes))
          · simp only [acceptRequest, routed, chosen]
          · intro action
            simp only [serveAtOnce, routed, forwardWithFailover, chosen, if_true]
            rfl
      | cons node rest =>
          have accepted : cluster.acceptRequest request =
              { cluster with inFlight := cluster.inFlight ++ [⟨request, node :: rest⟩] } := by
            simp only [acceptRequest, routed, chosen]
          apply traced.of_new
          · intro forwarding member
            rw [stepRun, accepted] at member
            rcases List.mem_append.mp member with before | last
            · exact .inl (same ▸ before)
            · rw [List.mem_singleton.mp last]
              refine .inr (sinceAccepted_now fun log => ?_)
              rw [← same] at consistent ⊢
              refine ⟨key, [], fun other => .error (nodeUnavailable other.nodeId), ?_⟩
              constructor
              case routed => exact routed
              case candidates => exact chosen
              case nodup =>
                have nodup := consistent.nodup_failoverCandidates failoverCandidateCount key
                rw [Int.cast_natCast, chosen] at nodup
                exact nodup
              case failed => exact fun _ impossible => by cases impossible
              case told => exact fun _ impossible => by cases impossible
          · intro other told member
            rw [stepRun, accepted] at member
            exact .inl (same ▸ member)

/-- Whatever happens, what is under way or answered stays traced. -/
theorem step (traced : Traced setup origin actions)
    (consistent : (run (step setup) origin actions).ring.Consistent) (action : ClusterAction) :
    Traced setup origin (actions ++ [action]) := by
  cases action with
  | accept request => exact traced.accept consistent request
  | arrive index eventId =>
      cases asked : (run (Cluster.step setup) origin actions).inFlight[index]? with
      | none => exact traced.of_same (by simp [Cluster.step, asked]) (by simp [Cluster.step, asked])
      | some forwarding =>
          obtain ⟨request, _ | ⟨node, rest⟩⟩ := forwarding
          · exact traced.of_same (by simp [Cluster.step, asked]) (by simp [Cluster.step, asked])
          · refine traced.afterAnswer asked
              ((run (Cluster.step setup) origin actions).afterHandling setup node.nodeId eventId
                request)
              ((run (Cluster.step setup) origin actions).handledBy node.nodeId request).answer
              (by simp only [Cluster.step, asked]) rfl rfl ?_
            intro more grown
            rw [← List.append_cancel_left grown]
            exact .inl ⟨_, List.mem_singleton_self _⟩
  | giveUp index =>
      cases asked : (run (Cluster.step setup) origin actions).inFlight[index]? with
      | none => exact traced.of_same (by simp [Cluster.step, asked]) (by simp [Cluster.step, asked])
      | some forwarding =>
          obtain ⟨request, _ | ⟨node, rest⟩⟩ := forwarding
          · exact traced.of_same (by simp [Cluster.step, asked]) (by simp [Cluster.step, asked])
          · refine traced.afterAnswer asked
              { run (Cluster.step setup) origin actions with
                strays := (run (Cluster.step setup) origin actions).strays ++
                  [(node.nodeId, request)] }
              (.error (nodeUnavailable node.nodeId)) ?_ rfl rfl (fun _ _ => .inr rfl)
            simp only [Cluster.step, asked]
            rfl
  | strayArrives index eventId =>
      apply traced.of_same
      · simp only [Cluster.step]
        split <;> rfl
      · simp only [Cluster.step]
        split <;> rfl
  | deliver nodeId index =>
      apply traced.of_same
      · simp only [Cluster.step]
        split <;> rfl
      · simp only [Cluster.step]
        split <;> rfl
  | restore nodeId index =>
      apply traced.of_same
      · simp only [Cluster.step]
        split
        · split <;> rfl
        · rfl
      · simp only [Cluster.step]
        split
        · split <;> rfl
        · rfl
  | setStatus | tick | remove | capture | crash | clear => exact traced.of_same rfl rfl

end Traced

/-- Every answer is that of one call of `forwardWithFailover`. -/
def AnswersAsAtOnce (setup : ClusterSetup Hook) (origin : Cluster Hook)
    (actions : List ClusterAction) : Prop :=
  ∀ request answer, (request, answer) ∈ (run (step setup) origin actions).answers →
    SinceAccepted setup origin actions request fun ring log => AsAtOnce ring log request answer

/-- Forwarding in steps refines forwarding at once: whatever happens between and during the
steps, each answer is what one call of `forwardWithFailover` returns, with the ring as it
was when the request was accepted and the answers the nodes have given to it since. -/
theorem forwarding_refines_one_call (setup : ClusterSetup Hook) (virtualNodeCount : Rat)
    (staticNodes : List StaticNode) (opened : Millis) (clock : String → Millis)
    (actions : List ClusterAction) :
    AnswersAsAtOnce setup
      (start setup (GatewayHealth.create virtualNodeCount staticNodes opened).ring clock)
      actions := by
  have traced : Traced setup
      (start setup (GatewayHealth.create virtualNodeCount staticNodes opened).ring clock)
      actions := by
    induction actions using List.reverseRecOn with
    | nil =>
        exact ⟨fun _ impossible => (List.not_mem_nil impossible).elim,
          fun _ _ impossible => (List.not_mem_nil impossible).elim⟩
    | append_singleton earlier action ih =>
        refine ih.step ?_ action
        have booted : RingKept (cacheNodeRing virtualNodeCount staticNodes opened)
            (start setup (GatewayHealth.create virtualNodeCount staticNodes opened).ring clock) :=
          ⟨GatewayHealth.samePoints_create virtualNodeCount staticNodes opened opened,
            GatewayHealth.consistent_run virtualNodeCount staticNodes opened ⟨0, 0⟩ []⟩
        have kept := @run_invariant _ _ _
          (RingKept (cacheNodeRing virtualNodeCount staticNodes opened)) _
          (fun _ action kept => RingKept.step kept setup action) booted earlier
        exact kept.2
  exact traced.answers

end Runs

end Cluster

end FlowCache
