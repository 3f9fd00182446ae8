-- Deployers side by side. If two deployers answer every request alike and stay in some relation
-- all along, then all work over them has the same events and the same answer, and leaves them in
-- that relation. Of a deployer beside itself this says that what every request keeps is kept by
-- all work.
import Rollout.Coordinator

namespace Rollout

variable {δ ε α β : Type}

/-! ## Requests -/

/-- Two ends of the same work: the answers are the same, and the relation holds. -/
def Matched (R : δ → ε → Prop) (x : δ × α) (y : ε × α) : Prop :=
  ∃ d e answer, x = (d, answer) ∧ y = (e, answer) ∧ R d e

theorem Matched.map {R : δ → ε → Prop} {x : δ × α} {y : ε × α} (h : Matched R x y) (f : α → β) :
    Matched R (x.map id f) (y.map id f) := by
  obtain ⟨d, e, answer, rfl, rfl, hR⟩ := h
  exact ⟨d, e, f answer, rfl, rfl, hR⟩

theorem Matched.snd_eq {R : δ → ε → Prop} {x : δ × α} {y : ε × α} (h : Matched R x y) :
    x.2 = y.2 := by
  obtain ⟨d, e, answer, rfl, rfl, _⟩ := h
  rfl

theorem Matched.fst {R : δ → ε → Prop} {x : δ × α} {y : ε × α} (h : Matched R x y) :
    R x.1 y.1 := by
  obtain ⟨d, e, answer, rfl, rfl, hR⟩ := h
  exact hR

/-- Deployers in the relation answer every request alike and stay in the relation. -/
structure Tandem [Deployer δ] [Deployer ε] (R : δ → ε → Prop) : Prop where
  deploy : ∀ {d e}, R d e → ∀ i, Matched R (Deployer.deploy d i) (Deployer.deploy e i)
  undeploy : ∀ {d e}, R d e → ∀ id, Matched R (Deployer.undeploy d id) (Deployer.undeploy e id)
  status : ∀ {d e}, R d e → ∀ id, Matched R (Deployer.status d id) (Deployer.status e id)

/-- A property of a deployer that every request keeps, whatever the answer. -/
structure Kept [Deployer δ] (P : δ → Prop) : Prop where
  deploy : ∀ {d}, P d → ∀ i, P (Deployer.deploy d i).1
  undeploy : ∀ {d}, P d → ∀ id, P (Deployer.undeploy d id).1
  status : ∀ {d}, P d → ∀ id, P (Deployer.status d id).1

/-- A deployer with a kept property goes along with itself. -/
theorem Kept.tandem [Deployer δ] {P : δ → Prop} (h : Kept P) :
    Tandem fun d e : δ => d = e ∧ P d where
  deploy := by
    rintro d _ ⟨rfl, hP⟩ i
    exact ⟨_, _, _, rfl, rfl, rfl, h.deploy hP i⟩
  undeploy := by
    rintro d _ ⟨rfl, hP⟩ id
    exact ⟨_, _, _, rfl, rfl, rfl, h.undeploy hP id⟩
  status := by
    rintro d _ ⟨rfl, hP⟩ id
    exact ⟨_, _, _, rfl, rfl, rfl, h.status hP id⟩

/-! ## Work -/

structure Outcome.Matches (R : δ → ε → Prop) (o : Outcome δ α) (o' : Outcome ε α) : Prop where
  deployer : R o.deployer o'.deployer
  events_eq : o.events = o'.events
  result_eq : o.result = o'.result

namespace Outcome.Matches

variable {R : δ → ε → Prop} {o : Outcome δ α} {o' : Outcome ε α}

theorem after (h : o.Matches R o') (e : Event) (f : α → β) :
    (o.after e f).Matches R (o'.after e f) where
  deployer := h.deployer
  events_eq := congrArg (e :: ·) h.events_eq
  result_eq := congrArg (·.map f) h.result_eq

theorem closing (h : o.Matches R o') (e : α → Event) :
    (o.closing e).Matches R (o'.closing e) := by
  obtain ⟨d, events, result⟩ := o
  obtain ⟨d', events', result'⟩ := o'
  obtain ⟨hdeployer, hevents, hresult⟩ := h
  simp only at hdeployer hevents hresult
  subst hevents hresult
  cases result with
  | error fault => exact ⟨hdeployer, rfl, rfl⟩
  | ok a => exact ⟨hdeployer, rfl, rfl⟩

end Outcome.Matches

structure Site.Matches (R : δ → ε → Prop) (s : Site δ) (s' : Site ε) : Prop where
  deployer : R s.deployer s'.deployer
  sink_eq : s.sink = s'.sink
  events_eq : s.events = s'.events
  plans_eq : s.plans = s'.plans

theorem Site.Matches.settle {R : δ → ε → Prop} {s : Site δ} {s' : Site ε}
    (hs : s.Matches R s') {o : Outcome δ α} {o' : Outcome ε α} (ho : o.Matches R o') :
    Matched (Site.Matches R) (s.settle o) (s'.settle o') := by
  obtain ⟨d, sink, events, plans⟩ := s
  obtain ⟨d', sink', events', plans'⟩ := s'
  obtain ⟨_, hsink, hevents, hplans⟩ := hs
  simp only at hsink hevents hplans
  subst hsink hevents hplans
  have hend : Site.Matches R (⟨o.deployer, sink, events.receive sink o.events, plans⟩ : Site δ)
      (⟨o'.deployer, sink, events.receive sink o'.events, plans⟩ : Site ε) :=
    ⟨ho.deployer, rfl, congrArg (events.receive sink ·) ho.events_eq, rfl⟩
  exact ⟨_, _, o.result, rfl, congrArg (Prod.mk _) ho.result_eq.symm, hend⟩

theorem Coordinator.plan_matched {R : δ → ε → Prop} {s : Site δ} {s' : Site ε}
    (c : Coordinator) (p : Pipeline) (overrides : Properties) (hs : s.Matches R s') :
    Matched (Site.Matches R) (c.plan p overrides s) (c.plan p overrides s') := by
  unfold plan Site.newPlan
  simp only [← hs.plans_eq]
  cases p.plan c.registry c.config overrides ⟨s.plans⟩ with
  | error fault => exact ⟨_, _, _, rfl, rfl, hs⟩
  | ok made =>
    exact ⟨_, _, _, rfl, rfl, hs.deployer, hs.sink_eq, hs.events_eq, rfl⟩

section Tandem

variable [Deployer δ] [Deployer ε] {R : δ → ε → Prop}

namespace Lifecycle

theorem issue_matches (h : Tandem R) (plan : PlanId) (is : List Instruction) {d : δ} {e : ε}
    (hR : R d e) : (issue plan is d).Matches R (issue plan is e) := by
  induction is generalizing d e with
  | nil => exact ⟨hR, rfl, rfl⟩
  | cons i is ih =>
    obtain ⟨d', e', answer, hd, he, hR'⟩ := h.deploy hR i
    unfold issue
    rw [hd, he]
    cases answer with
    | error fault => exact ⟨hR', rfl, rfl⟩
    | ok _ => exact (ih hR').after _ _

theorem deploy_matches (h : Tandem R) (made : Plan) {d : δ} {e : ε} (hR : R d e) :
    (Lifecycle.deploy made d).Matches R (Lifecycle.deploy made e) :=
  (issue_matches h made.id made.instructions hR).closing _

theorem withdraw_matches (h : Tandem R) (ids : List StageId) {d : δ} {e : ε} (hR : R d e) :
    (withdraw ids d).Matches R (withdraw ids e) := by
  induction ids generalizing d e with
  | nil => exact ⟨hR, rfl, rfl⟩
  | cons id ids ih =>
    obtain ⟨d', e', answer, hd, he, hR'⟩ := h.status hR id
    unfold withdraw
    rw [hd, he]
    cases answer with
    | error fault => exact ⟨hR', rfl, rfl⟩
    | ok state =>
      simp only
      split
      · exact (ih hR').after _ _
      · obtain ⟨d'', e'', answer, hd', he', hR''⟩ := h.undeploy hR' id
        rw [hd', he']
        cases answer with
        | error fault => exact ⟨hR'', rfl, rfl⟩
        | ok _ => exact (ih hR'').after _ _

theorem undeploy_matches (h : Tandem R) (p : Pipeline) {d : δ} {e : ε} (hR : R d e) :
    (Lifecycle.undeploy p d).Matches R (Lifecycle.undeploy p e) :=
  (withdraw_matches h p.ids hR).closing _

end Lifecycle

namespace Status

theorem ask_matched (h : Tandem R) (ids : List StageId) (known : SortedMap StageId StageState)
    {d : δ} {e : ε} (hR : R d e) : Matched R (ask ids known d) (ask ids known e) := by
  induction ids generalizing known d e with
  | nil => exact ⟨d, e, .ok known, rfl, rfl, hR⟩
  | cons id ids ih =>
    obtain ⟨d', e', answer, hd, he, hR'⟩ := h.status hR id
    unfold ask
    rw [hd, he]
    cases answer with
    | error fault => exact ⟨d', e', .error (.deployer fault), rfl, rfl, hR'⟩
    | ok state => exact ih (known.insert id state) hR'

theorem query_matches (h : Tandem R) (p : Pipeline) {d : δ} {e : ε} (hR : R d e) :
    (query p d).Matches R (query p e) := by
  obtain ⟨d', e', states, hd, he, hR'⟩ := ask_matched h p.ids ∅ hR
  unfold query byStage
  rw [hd, he]
  apply Outcome.Matches.closing
  exact ⟨hR', rfl, rfl⟩

end Status

/-! ## Operations -/

namespace Coordinator

variable {s : Site δ} {s' : Site ε}

theorem deploy_matched (h : Tandem R) (c : Coordinator) (p : Pipeline) (overrides : Properties)
    (hs : s.Matches R s') :
    Matched (Site.Matches R) (c.deploy p overrides s) (c.deploy p overrides s') := by
  obtain ⟨t, t', planned, ht, ht', hmatch⟩ := plan_matched c p overrides hs
  unfold deploy
  rw [ht, ht']
  cases planned with
  | error fault => exact ⟨t, t', _, rfl, rfl, hmatch⟩
  | ok made =>
    exact (hmatch.settle (Lifecycle.deploy_matches h made hmatch.deployer)).map
      (·.map fun _ => made)

theorem deployListing_matched (h : Tandem R) (c : Coordinator) (p : Pipeline)
    (overrides : String) (hs : s.Matches R s') :
    Matched (Site.Matches R) (c.deployListing p overrides s)
      (c.deployListing p overrides s') := by
  unfold deployListing
  cases Properties.ofListing overrides with
  | error fault => exact ⟨s, s', _, rfl, rfl, hs⟩
  | ok properties => exact deploy_matched h c p properties hs

theorem undeploy_matched (h : Tandem R) (p : Pipeline) (hs : s.Matches R s') :
    Matched (Site.Matches R) (undeploy p s) (undeploy p s') :=
  hs.settle (Lifecycle.undeploy_matches h p hs.deployer)

theorem undeployEach_matched (h : Tandem R) (ps : List Pipeline) (hs : s.Matches R s') :
    Matched (Site.Matches R) (undeployEach ps s) (undeployEach ps s') := by
  induction ps generalizing s s' with
  | nil => exact ⟨s, s', .ok 0, rfl, rfl, hs⟩
  | cons p ps ih =>
    obtain ⟨t, t', report, ht, ht', hmatch⟩ := undeploy_matched h p hs
    unfold undeployEach
    rw [ht, ht']
    cases report with
    | error fault => exact ⟨t, t', _, rfl, rfl, hmatch⟩
    | ok report => exact (ih hmatch).map (·.map (report.count + ·))

theorem status_matched (h : Tandem R) (p : Pipeline) (hs : s.Matches R s') :
    Matched (Site.Matches R) (status p s) (status p s') :=
  hs.settle (Status.query_matches h p hs.deployer)

/-- Over deployers that go along with each other, every operation comes to the same. -/
theorem perform_matched (h : Tandem R) (c : Coordinator) (op : Operation)
    (hs : s.Matches R s') :
    Matched (Site.Matches R) (c.perform s op) (c.perform s' op) := by
  cases op with
  | plan p overrides => exact (plan_matched c p overrides hs).map _
  | deploy p overrides => exact (deploy_matched h c p overrides hs).map _
  | deployListing p overrides => exact (deployListing_matched h c p overrides hs).map _
  | undeploy p => exact (undeploy_matched h p hs).map _
  | undeployEach ps => exact (undeployEach_matched h ps hs).map _
  | status p => exact (status_matched h p hs).map _

/-- What every request keeps, every operation keeps. -/
theorem perform_keeps {P : δ → Prop} (h : Kept P) (c : Coordinator) (op : Operation)
    (hP : P s.deployer) : P (c.perform s op).1.deployer := by
  have hs : s.Matches (fun d e => d = e ∧ P d) s := ⟨⟨rfl, hP⟩, rfl, rfl, rfl⟩
  exact (perform_matched h.tandem c op hs).fst.deployer.2

end Coordinator

end Tandem

end Rollout
