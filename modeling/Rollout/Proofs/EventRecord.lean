-- The events as a record of what was done. While requests reach a deployer that only remembers,
-- events are collected on the side; the two histories grow by turns and always tell the same.
import Rollout.Linear
import Rollout.Proofs.Asking
import Rollout.Proofs.DeployEndings
import Rollout.Proofs.ExactTakedown
import Rollout.Session

namespace Rollout

variable {δ : Type}

/-! ## Two histories -/

/-- The stages that the events of a type are about, oldest first. -/
def Event.stagesOf (type : EventType) (events : List Event) : List (Option StageId) :=
  (events.filter (·.type = type)).map Event.stage?

theorem Event.stagesOf_append (type : EventType) (events later : List Event) :
    stagesOf type (events ++ later) = stagesOf type events ++ stagesOf type later := by
  unfold stagesOf
  rw [List.filter_append, List.map_append]

theorem Event.stagesOf_eq_nil {type : EventType} {events : List Event}
    (h : ∀ e ∈ events, e.type ≠ type) : stagesOf type events = [] := by
  unfold stagesOf
  rw [List.map_eq_nil_iff, List.filter_eq_nil_iff]
  intro e he
  rw [decide_eq_true_iff]
  exact h e he

/-- The events tell of the requests: in order, which stages the deployer started and which ones it
was asked to take down. A stage is told of under the name of its pipeline. -/
structure Tally (exchanges : List Exchange) (events : List Event) : Prop where
  started : Event.stagesOf .deployRequested events =
    (exchanges.filterMap Exchange.started?).map some
  undeployed : Event.stagesOf .undeployRequested events =
    (exchanges.filterMap Exchange.undeploy?).map some
  pipeline_eq : ∀ e ∈ events, ∀ id, e.stage? = some id → e.pipeline = id.group

namespace Tally

variable {exchanges later : List Exchange} {events laterEvents : List Event}

theorem nil : Tally [] [] := ⟨rfl, rfl, by simp⟩

theorem append (h : Tally exchanges events) (h' : Tally later laterEvents) :
    Tally (exchanges ++ later) (events ++ laterEvents) where
  started := by
    rw [Event.stagesOf_append, h.started, h'.started, List.filterMap_append, List.map_append]
  undeployed := by
    rw [Event.stagesOf_append, h.undeployed, h'.undeployed, List.filterMap_append,
      List.map_append]
  pipeline_eq := by
    intro e he
    rcases List.mem_append.1 he with he | he
    · exact h.pipeline_eq e he
    · exact h'.pipeline_eq e he

/-- An event of a pipeline as a whole tells of no request. -/
theorem close (h : Tally exchanges events) {type : EventType} (pipeline : String)
    (data : EventData) (hstart : type ≠ .deployRequested) (hdown : type ≠ .undeployRequested) :
    Tally exchanges (events ++ [.ofPipeline type pipeline data]) := by
  have hlast : Tally [] [.ofPipeline type pipeline data] := by
    refine ⟨Event.stagesOf_eq_nil ?_, Event.stagesOf_eq_nil ?_, ?_⟩
    · simpa [Event.ofPipeline] using hstart
    · simpa [Event.ofPipeline] using hdown
    · simp [Event.ofPipeline]
  simpa using h.append hlast

end Tally

/-- The history of a site grew by requests and by events that tell of them. -/
structure Site.Adds (s s' : Site (Heard δ)) (exchanges : List Exchange) (events : List Event) :
    Prop where
  exchanges_eq : s'.deployer.exchanges = s.deployer.exchanges ++ exchanges
  sink_eq : s'.sink = s.sink
  events_eq : s'.events = s.events.receive s.sink events
  tally : Tally exchanges events

namespace Site.Adds

variable {s s' s'' : Site (Heard δ)} {exchanges later : List Exchange}
  {events laterEvents : List Event}

theorem refl (s : Site (Heard δ)) : s.Adds s [] [] :=
  ⟨(List.append_nil _).symm, rfl, (EventLog.receive_nil _ _).symm, .nil⟩

theorem trans (h : s.Adds s' exchanges events) (h' : s'.Adds s'' later laterEvents) :
    s.Adds s'' (exchanges ++ later) (events ++ laterEvents) where
  exchanges_eq := by rw [h'.exchanges_eq, h.exchanges_eq, List.append_assoc]
  sink_eq := h'.sink_eq.trans h.sink_eq
  events_eq := by rw [h'.events_eq, h.sink_eq, h.events_eq, ← EventLog.receive_append]
  tally := h.tally.append h'.tally

end Site.Adds

/-! ## Deploying -/

/-- An event of a stage that was started. -/
def Event.OfStarted (e : Event) : Prop := e.type = .deployRequested ∧ e.stage?.isSome

/-- What is told of starting stages: each of those that were started, and nothing else. -/
structure Starts (h : Heard δ) (o : Outcome (Heard δ) (List StageId)) (exchanges : List Exchange) :
    Prop where
  exchanges_eq : o.deployer.exchanges = h.exchanges ++ exchanges
  tally : Tally exchanges o.events
  requested : ∀ e ∈ o.events, e.OfStarted
  counted : ∀ ids, o.result = .ok ids → ids.length = o.events.length

theorem tally_started (id : StageId) (data : EventData) :
    Tally [.deploy id (.ok ())] [.ofStage .deployRequested id data] where
  started := rfl
  undeployed := rfl
  pipeline_eq := by simp [Event.ofStage]

theorem Starts.after {h : Heard δ} {d : δ} {o : Outcome (Heard δ) (List StageId)}
    {exchanges : List Exchange} {id : StageId}
    (hrest : Starts ⟨d, h.exchanges ++ [.deploy id (.ok ())]⟩ o exchanges) (data : EventData) :
    Starts h (o.after (.ofStage .deployRequested id data) (id :: ·))
      (.deploy id (.ok ()) :: exchanges) where
  exchanges_eq := hrest.exchanges_eq.trans (List.append_cons _ _ _).symm
  tally := (tally_started id data).append hrest.tally
  requested := List.forall_mem_cons.2 ⟨⟨rfl, rfl⟩, hrest.requested⟩
  counted := by
    obtain ⟨d', events, result⟩ := o
    cases result with
    | error fault =>
      intro ids hids
      cases hids
    | ok ids' =>
      intro ids hids
      cases hids
      exact congrArg (· + 1) (hrest.counted ids' rfl)

theorem Lifecycle.issue_starts [Deployer δ] (plan : PlanId) (is : List Instruction)
    (h : Heard δ) : ∃ exchanges, Starts h (issue plan is h) exchanges := by
  induction is generalizing h with
  | nil =>
    refine ⟨[], (List.append_nil _).symm, .nil, by simp [issue], ?_⟩
    intro ids hids
    cases hids
    rfl
  | cons i is ih =>
    unfold issue
    rw [Heard.deploy_eq]
    cases hdeploy : Deployer.deploy h.deployer i with
    | mk d answer =>
      cases answer with
      | error fault =>
        refine ⟨[.deploy i.deploymentId (.error fault)], rfl, ⟨rfl, rfl, ?_⟩, ?_, ?_⟩
        all_goals simp [Outcome.failed]
      | ok _ =>
        obtain ⟨exchanges, hrest⟩ := ih ⟨d, h.exchanges ++ [.deploy i.deploymentId (.ok ())]⟩
        exact ⟨_, hrest.after _⟩

/-- How the events of deploying a pipeline end, by the answer: the last one counts those before,
which are of the stages that were started, unless deploying failed. -/
def DeployTold (p : Pipeline) (events : List Event) : Except Fault Plan → Prop
  | .ok made => ∃ told, events = told ++
      [.ofPipeline .pipelineDeployed p.name (.planDone made.id told.length)] ∧
      ∀ e ∈ told, e.OfStarted
  | .error _ => ∀ e ∈ events, e.OfStarted

theorem Lifecycle.deploy_told [Deployer δ] {p : Pipeline} {made : Plan}
    (hmade : made.pipeline = p.name) (h : Heard δ) :
    ∃ exchanges, (Lifecycle.deploy made h).deployer.exchanges = h.exchanges ++ exchanges ∧
      Tally exchanges (Lifecycle.deploy made h).events ∧
      DeployTold p (Lifecycle.deploy made h).events
        ((Lifecycle.deploy made h).result.map fun _ => made) := by
  obtain ⟨exchanges, hstarts⟩ := issue_starts made.id made.instructions h
  unfold Lifecycle.deploy Outcome.closing
  cases hresult : (issue made.id made.instructions h).result with
  | error fault =>
    refine ⟨exchanges, hstarts.exchanges_eq, hstarts.tally, ?_⟩
    simp only [hresult]
    exact hstarts.requested
  | ok ids =>
    refine ⟨exchanges, hstarts.exchanges_eq, hstarts.tally.close _ _ (by decide) (by decide), ?_⟩
    simp only [hmade, hstarts.counted ids hresult]
    exact ⟨_, rfl, hstarts.requested⟩

/-! ## Taking down -/

/-- What is told of taking a pipeline down, with the report: the last event has the numbers of the
report, each stage that was not there is told of once, and nothing else is told. -/
structure TakenDown (p : Pipeline) (report : Takedown) (exchanges : List Exchange)
    (events : List Event) : Prop where
  ends : ∃ told, events = told ++ [.ofPipeline .pipelineUndeployed p.name
      (.tally report.undeployed.length report.skipped.length)] ∧
    ∀ e ∈ told, e.type = .undeployRequested ∨ e.type = .undeploySkipped
  undeployed_eq : exchanges.filterMap Exchange.undeploy? = report.undeployed
  absent_eq : exchanges.filterMap Exchange.absent? = report.skipped
  skipped_eq : Event.stagesOf .undeploySkipped events = report.skipped.map some
  once : report.skipped.Nodup

namespace Lifecycle

open MemoryDeployer

theorem tally_sweep (d : MemoryDeployer) (id : StageId) :
    Tally (d.sweepExchanges id) [sweepEvent d id] := by
  unfold sweepExchanges sweepEvent
  cases (d.state id).isAbsent with
  | true => exact ⟨rfl, rfl, by simp [Event.ofStage]⟩
  | false => exact ⟨rfl, rfl, by simp [Event.ofStage]⟩

theorem tally_sweepEach (d : MemoryDeployer) (ids : List StageId) :
    Tally (ids.flatMap d.sweepExchanges) (ids.map (sweepEvent d)) := by
  induction ids with
  | nil => exact .nil
  | cons id ids ih => exact (tally_sweep d id).append ih

theorem undeployed_heard (d : MemoryDeployer) (ids : List StageId) :
    (ids.flatMap d.sweepExchanges).filterMap Exchange.undeploy? =
      (takedown d ids).undeployed := by
  apply Traversal.filterMap_flatMap_eq_filter
  intro id
  unfold sweepExchanges
  cases (d.state id).isAbsent <;> rfl

theorem skipped_heard (d : MemoryDeployer) (ids : List StageId) :
    (ids.flatMap d.sweepExchanges).filterMap Exchange.absent? = (takedown d ids).skipped := by
  apply Traversal.filterMap_flatMap_eq_filter
  intro id
  unfold sweepExchanges
  cases habsent : (d.state id).isAbsent <;> simp [Exchange.absent?, habsent]

theorem skipped_told (d : MemoryDeployer) (ids : List StageId) :
    Event.stagesOf .undeploySkipped (ids.map (sweepEvent d)) =
      (takedown d ids).skipped.map some := by
  induction ids with
  | nil => rfl
  | cons id ids ih =>
    rw [List.map_cons, ← List.singleton_append, Event.stagesOf_append, ih]
    unfold takedown sweepEvent
    rw [List.filter_cons, List.filter_cons]
    cases (d.state id).isAbsent <;> rfl

theorem type_sweepEvent (d : MemoryDeployer) (id : StageId) :
    (sweepEvent d id).type = .undeployRequested ∨ (sweepEvent d id).type = .undeploySkipped := by
  unfold sweepEvent
  cases (d.state id).isAbsent with
  | true => exact Or.inr rfl
  | false => exact Or.inl rfl

/-- The events of taking a pipeline down at a deployer, before the last one. -/
theorem takenDown_undeploy (p : Pipeline) (d : MemoryDeployer) :
    TakenDown p (takedown d p.ids) (p.ids.flatMap d.sweepExchanges)
      (Lifecycle.undeploy p d).events where
  ends := by
    rw [undeploy_eq]
    refine ⟨p.ids.map (sweepEvent d), rfl, ?_⟩
    intro e he
    obtain ⟨id, _, rfl⟩ := List.mem_map.1 he
    exact type_sweepEvent d id
  undeployed_eq := undeployed_heard d p.ids
  absent_eq := skipped_heard d p.ids
  skipped_eq := by
    rw [undeploy_eq, Event.stagesOf_append, skipped_told]
    exact List.append_nil _
  once := p.ids_nodup.filter _

end Lifecycle

/-- What is told of taking pipelines down one after the other: each of them in turn. The stages
that were taken down are counted. -/
inductive EachTakenDown : List Pipeline → Nat → List Exchange → List Event → Prop
  | nil : EachTakenDown [] 0 [] []
  | cons {p : Pipeline} {ps : List Pipeline} {report : Takedown} {count : Nat}
      {exchanges later : List Exchange} {events laterEvents : List Event} :
      TakenDown p report exchanges events → EachTakenDown ps count later laterEvents →
      EachTakenDown (p :: ps) (report.count + count) (exchanges ++ later) (events ++ laterEvents)

/-! ## Asking -/

theorem Status.exchanges_ask (ids : List StageId) (known : SortedMap StageId StageState)
    (h : Heard MemoryDeployer) :
    (ask ids known h).1.exchanges =
      h.exchanges ++ ids.map fun id => .status id (.ok (h.deployer.state id)) := by
  induction ids generalizing known h with
  | nil => exact (List.append_nil _).symm
  | cons id ids ih =>
    unfold ask
    rw [Heard.status_eq]
    simp only
    rw [ih, List.map_cons]
    exact (List.append_cons _ _ _).symm

theorem Status.exchanges_query (p : Pipeline) (h : Heard MemoryDeployer) :
    (query p h).deployer.exchanges =
      h.exchanges ++ p.ids.map fun id => .status id (.ok (h.deployer.state id)) := by
  unfold query byStage
  rw [Outcome.deployer_closing]
  exact exchanges_ask p.ids ∅ h

/-- Asking for stages starts none and takes none down. -/
theorem tally_asked (ids : List StageId) (state : StageId → StageState) :
    Tally (ids.map fun id => .status id (.ok (state id))) [] := by
  refine ⟨?_, ?_, by simp⟩
  · simp [Event.stagesOf, Function.comp_def, Exchange.started?]
  · simp [Event.stagesOf, Function.comp_def, Exchange.undeploy?]

/-! ## Operations -/

/-- What is told of an operation, with what it was answered. -/
def Operation.Told : Operation → Except Fault Report → List Exchange → List Event → Prop
  | .plan _ _, _, exchanges, events => exchanges = [] ∧ events = []
  | .deploy p _, result, _, events | .deployListing p _, result, _, events =>
    ∃ planned, result = planned.map .planned ∧ DeployTold p events planned
  | .undeploy p, result, exchanges, events =>
    ∃ report, result = .ok (.undeployed report) ∧ TakenDown p report exchanges events
  | .undeployEach ps, result, exchanges, events =>
    ∃ count, result = .ok (.counted count) ∧ EachTakenDown ps count exchanges events
  | .status p, result, _, events => ∃ report, result = .ok (.status report) ∧
    events = [.ofPipeline .stateComputed p.name (.computed report.state)]

namespace Coordinator

theorem plan_adds (c : Coordinator) (p : Pipeline) (overrides : Properties)
    (s : Site (Heard δ)) : s.Adds (c.plan p overrides s).1 [] [] := by
  have hadds := Site.Adds.refl s
  unfold plan Site.newPlan
  simp only
  cases p.plan c.registry c.config overrides ⟨s.plans⟩ with
  | error fault => exact hadds
  | ok made => exact ⟨hadds.exchanges_eq, rfl, hadds.events_eq, .nil⟩

theorem deploy_told [Deployer δ] (c : Coordinator) (p : Pipeline) (overrides : Properties)
    (s : Site (Heard δ)) :
    ∃ exchanges events, s.Adds (c.deploy p overrides s).1 exchanges events ∧
      DeployTold p events (c.deploy p overrides s).2 := by
  cases hplan : p.plan c.registry c.config overrides ⟨s.plans⟩ with
  | error fault =>
    rw [deploy_of_error hplan]
    exact ⟨[], [], .refl s, by simp [DeployTold]⟩
  | ok made =>
    rw [deploy_of_ok hplan]
    have hmade : made.pipeline = p.name := (Pipeline.plan_eq_ok_iff.1 hplan).2.2
    obtain ⟨exchanges, hexchanges, htally, htold⟩ := Lifecycle.deploy_told hmade s.deployer
    exact ⟨exchanges, _, ⟨hexchanges, rfl, rfl, htally⟩, htold⟩

theorem deployListing_told [Deployer δ] (c : Coordinator) (p : Pipeline) (overrides : String)
    (s : Site (Heard δ)) :
    ∃ exchanges events, s.Adds (c.deployListing p overrides s).1 exchanges events ∧
      DeployTold p events (c.deployListing p overrides s).2 := by
  unfold deployListing
  cases Properties.ofListing overrides with
  | error fault => exact ⟨[], [], .refl s, by simp [DeployTold]⟩
  | ok properties => exact c.deploy_told p properties s

theorem undeploy_told (p : Pipeline) (s : Site (Heard MemoryDeployer)) :
    ∃ report exchanges events, (undeploy p s).2 = .ok report ∧
      s.Adds (undeploy p s).1 exchanges events ∧ TakenDown p report exchanges events := by
  have hsame := Lifecycle.undeploy_matches Heard.tandem p (Eq.refl s.deployer.deployer)
  have htold := Lifecycle.takenDown_undeploy p s.deployer.deployer
  have htally : Tally (p.ids.flatMap s.deployer.deployer.sweepExchanges)
      (Lifecycle.undeploy p s.deployer.deployer).events := by
    rw [Lifecycle.undeploy_eq]
    exact (Lifecycle.tally_sweepEach _ _).close _ _ (by decide) (by decide)
  rw [← hsame.events_eq] at htally htold
  refine ⟨_, _, _, ?_, ⟨Lifecycle.exchanges_undeploy p s.deployer, rfl, rfl, htally⟩, htold⟩
  have hresult := hsame.result_eq
  rw [Lifecycle.undeploy_eq] at hresult
  exact hresult

theorem undeployEach_told (ps : List Pipeline) (s : Site (Heard MemoryDeployer)) :
    ∃ count exchanges events, (undeployEach ps s).2 = .ok count ∧
      s.Adds (undeployEach ps s).1 exchanges events ∧
      EachTakenDown ps count exchanges events := by
  induction ps generalizing s with
  | nil => exact ⟨0, [], [], rfl, .refl s, .nil⟩
  | cons p ps ih =>
    obtain ⟨report, exchanges, events, hreport, hadds, htold⟩ := undeploy_told p s
    obtain ⟨count, later, laterEvents, hcount, hadds', htold'⟩ := ih (undeploy p s).1
    have heach : undeployEach (p :: ps) s =
        ((undeployEach ps (undeploy p s).1).1, .ok (report.count + count)) := by
      conv => lhs; unfold undeployEach
      rw [← Prod.eta (undeploy p s), hreport]
      simp only
      rw [hcount]
      rfl
    rw [heach]
    exact ⟨_, _, _, rfl, hadds.trans hadds', .cons htold htold'⟩

theorem status_told (p : Pipeline) (s : Site (Heard MemoryDeployer)) :
    ∃ report exchanges events, (status p s).2 = .ok report ∧
      s.Adds (status p s).1 exchanges events ∧
      events = [.ofPipeline .stateComputed p.name (.computed report.state)] := by
  have hsame := Status.query_matches Heard.tandem p (Eq.refl s.deployer.deployer)
  have hresult := hsame.result_eq
  have hevents := hsame.events_eq
  rw [Status.query_eq] at hresult hevents
  refine ⟨_, _, _, hresult, ⟨Status.exchanges_query p s.deployer, rfl, rfl, ?_⟩, hevents⟩
  rw [hevents]
  exact (tally_asked _ _).close _ _ (by decide) (by decide)

/-- Whatever an operation comes to, its events tell of the requests that it put to the deployer
and of its answer. -/
theorem perform_told (c : Coordinator) (op : Operation) (s : Site (Heard MemoryDeployer)) :
    ∃ exchanges events, s.Adds (c.perform s op).1 exchanges events ∧
      op.Told (c.perform s op).2 exchanges events := by
  cases op with
  | plan p overrides => exact ⟨[], [], c.plan_adds p overrides s, rfl, rfl⟩
  | deploy p overrides =>
    obtain ⟨exchanges, events, hadds, htold⟩ := c.deploy_told p overrides s
    exact ⟨exchanges, events, hadds, _, rfl, htold⟩
  | deployListing p overrides =>
    obtain ⟨exchanges, events, hadds, htold⟩ := c.deployListing_told p overrides s
    exact ⟨exchanges, events, hadds, _, rfl, htold⟩
  | undeploy p =>
    obtain ⟨report, exchanges, events, hreport, hadds, htold⟩ := undeploy_told p s
    exact ⟨exchanges, events, hadds, report, congrArg (·.map Report.undeployed) hreport, htold⟩
  | undeployEach ps =>
    obtain ⟨count, exchanges, events, hcount, hadds, htold⟩ := undeployEach_told ps s
    exact ⟨exchanges, events, hadds, count, congrArg (·.map Report.counted) hcount, htold⟩
  | status p =>
    obtain ⟨report, exchanges, events, hreport, hadds, hevents⟩ := status_told p s
    exact ⟨exchanges, events, hadds, report, congrArg (·.map Report.status) hreport, hevents⟩

end Coordinator

/-! ## Sessions -/

/-- What an act came to: the requests that it put to the deployer, the events and the answer. -/
structure Entry where
  exchanges : List Exchange
  events : List Event
  answer : Answer

/-- What is told of an act. Changes of the deployer are told of nowhere. -/
def Entry.Told (e : Entry) : Prop :=
  match e.answer with
  | ⟨.operate op, some result⟩ => op.Told result e.exchanges e.events
  | ⟨.operate _, none⟩ => False
  | ⟨_, result⟩ => result.isNone ∧ e.exchanges = [] ∧ e.events = []

namespace Coordinator

/-- The requests that an act puts to the deployer, as they are noted while it is listened to. That
it is listened to changes neither the answer nor the events (`perform_matched`). -/
def exchanges (c : Coordinator) (s : Site MemoryDeployer) : Act → List Exchange
  | .operate op => (c.perform s.listened op).1.deployer.exchanges
  | _ => []

/-- What an act comes to at a site that collects events. -/
def entry (c : Coordinator) (s : Site MemoryDeployer) (a : Act) : Entry where
  exchanges := c.exchanges s a
  events := (c.act s a).1.events.events.drop s.events.size
  answer := (c.act s a).2

/-- What acts come to that are done one after the other. -/
def journal (c : Coordinator) : List Act → Site MemoryDeployer → List Entry
  | [], _ => []
  | a :: rest, s => c.entry s a :: c.journal rest (c.act s a).1

end Coordinator

/-- Entries are a faithful record of what led from one site to the other: all requests, events and
answers are there, the events tell of the requests, and of each act they tell what it came to. -/
structure Faithful (entries : List Entry) (s s' : Site MemoryDeployer) (answers : List Answer) :
    Prop where
  answers_eq : answers = entries.map Entry.answer
  events_eq : s'.events.events = s.events.events ++ entries.flatMap Entry.events
  log_eq : s'.deployer.log =
    ((entries.flatMap Entry.exchanges).map Exchange.call).foldl CallLog.record s.deployer.log
  sink_eq : s'.sink = s.sink
  tally : Tally (entries.flatMap Entry.exchanges) (entries.flatMap Entry.events)
  told : ∀ e ∈ entries, e.Told

namespace Faithful

variable {entries later : List Entry} {s s' s'' : Site MemoryDeployer}
  {answers laterAnswers : List Answer}

theorem nil (s : Site MemoryDeployer) : Faithful [] s s [] :=
  ⟨rfl, (List.append_nil _).symm, rfl, rfl, .nil, by simp⟩

/-- One entry is a faithful record of an act. -/
theorem single {e : Entry} (hevents : s'.events.events = s.events.events ++ e.events)
    (hlog : s'.deployer.log = (e.exchanges.map Exchange.call).foldl CallLog.record s.deployer.log)
    (hsink : s'.sink = s.sink) (htally : Tally e.exchanges e.events) (htold : e.Told) :
    Faithful [e] s s' [e.answer] where
  answers_eq := rfl
  events_eq := by rw [List.flatMap_singleton, hevents]
  log_eq := by rw [List.flatMap_singleton, hlog]
  sink_eq := hsink
  tally := by
    rw [List.flatMap_singleton, List.flatMap_singleton]
    exact htally
  told := List.forall_mem_singleton.2 htold

theorem append (h : Faithful entries s s' answers) (h' : Faithful later s' s'' laterAnswers) :
    Faithful (entries ++ later) s s'' (answers ++ laterAnswers) where
  answers_eq := by rw [h.answers_eq, h'.answers_eq, List.map_append]
  events_eq := by rw [h'.events_eq, h.events_eq, List.flatMap_append, List.append_assoc]
  log_eq := by
    rw [h'.log_eq, h.log_eq, List.flatMap_append, List.map_append, List.foldl_append]
  sink_eq := h'.sink_eq.trans h.sink_eq
  tally := by
    rw [List.flatMap_append, List.flatMap_append]
    exact h.tally.append h'.tally
  told := List.forall_mem_append.2 ⟨h.told, h'.told⟩

end Faithful

namespace Coordinator

variable {s : Site MemoryDeployer}

theorem operate_faithful (c : Coordinator) (op : Operation) (hsink : s.sink = .collect) :
    Faithful [c.entry s (.operate op)] s (c.act s (.operate op)).1
      [(c.act s (.operate op)).2] := by
  obtain ⟨exchanges, events, hadds, htold⟩ := c.perform_told op s.listened
  have hmatched := perform_matched Heard.tandem c op s.listened_matches
  have hexchanges : (c.perform s.listened op).1.deployer.exchanges = exchanges :=
    hadds.exchanges_eq
  have hevents : (c.perform s op).1.events.events = s.events.events ++ events := by
    rw [← hmatched.fst.events_eq, hadds.events_eq]
    show (s.events.receive s.sink events).events = _
    rw [hsink]
    rfl
  have hlog : (c.perform s op).1.deployer.log =
      (exchanges.map Exchange.call).foldl CallLog.record s.deployer.log := by
    have hlogs : Heard.Logs s.deployer.log (c.perform s.listened op).1.deployer :=
      perform_keeps (Heard.logs_kept s.deployer.log) c op rfl
    rw [← hmatched.fst.deployer, ← hexchanges]
    exact hlogs
  have hentry : c.entry s (.operate op) =
      ⟨exchanges, events, ⟨.operate op, some (c.perform s op).2⟩⟩ := by
    have hadded : (c.perform s op).1.events.events.drop s.events.size = events := by
      rw [hevents]
      exact List.drop_left
    rw [← hexchanges, ← hadded]
    rfl
  rw [hmatched.snd_eq] at htold
  rw [hentry]
  exact .single hevents hlog (hmatched.fst.sink_eq.symm.trans hadds.sink_eq) hadds.tally htold

/-- A change of the deployer makes no requests and no events. -/
theorem change_faithful (s : Site MemoryDeployer) (d : MemoryDeployer)
    (hlog : d.log = s.deployer.log) {e : Entry} (hexchanges : e.exchanges = [])
    (hevents : e.events = []) (htold : e.Told) :
    Faithful [e] s { s with deployer := d } [e.answer] := by
  apply Faithful.single
  · rw [hevents, List.append_nil]
  · rw [hexchanges, hlog]
    rfl
  · rfl
  · rw [hexchanges, hevents]
    exact .nil
  · exact htold

theorem act_faithful (c : Coordinator) (a : Act) (hsink : s.sink = .collect) :
    Faithful [c.entry s a] s (c.act s a).1 [(c.act s a).2] := by
  have hnone : s.events.events.drop s.events.size = [] := List.drop_length
  cases a with
  | operate op => exact c.operate_faithful op hsink
  | refuse id reason =>
    have htold : (c.entry s (.refuse id reason)).Told := ⟨rfl, rfl, hnone⟩
    exact change_faithful s (s.deployer.refuse id reason) rfl rfl hnone htold
  | overrideState id state =>
    have htold : (c.entry s (.overrideState id state)).Told := ⟨rfl, rfl, hnone⟩
    exact change_faithful s (s.deployer.overrideState id state) rfl rfl hnone htold

theorem run_faithful (c : Coordinator) (acts : List Act) (hsink : s.sink = .collect) :
    Faithful (c.journal acts s) s (c.run acts s).1 (c.run acts s).2 := by
  induction acts generalizing s with
  | nil => exact .nil s
  | cons a rest ih =>
    have hact := c.act_faithful a hsink
    exact hact.append (ih (hact.sink_eq.trans hsink))

/-- The events that are collected in a session are a faithful record of it, whatever the deployer
remembers at its start. -/
theorem events_are_a_faithful_record (c : Coordinator) (acts : List Act) (d : MemoryDeployer)
    (events : EventLog) (plans : Nat) :
    ∃ s answers, c.run acts ⟨d, .collect, events, plans⟩ = (s, answers) ∧
      Faithful (c.journal acts ⟨d, .collect, events, plans⟩) ⟨d, .collect, events, plans⟩ s
        answers :=
  ⟨_, _, rfl, c.run_faithful acts rfl⟩

-- A stage that is refused is not told of as started; being failed, it is there to be taken down.
example : ((Linear.build "ticktock" ["time", "log"]).toOption.map fun l =>
    (run ⟨l.registry, {}⟩ [.refuse ⟨"ticktock", "time"⟩ "no room", .operate (.deploy l.pipeline ∅),
      .operate (.undeploy l.pipeline), .operate (.status l.pipeline)]
      ⟨default, .collect, {}, 0⟩).1.events.types) =
    some [.deployRequested, .undeployRequested, .undeployRequested, .pipelineUndeployed,
      .stateComputed] := by
  decide +kernel

end Coordinator

end Rollout
