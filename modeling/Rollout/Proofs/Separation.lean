-- Pipelines do not interfere. An act on a pipeline, or on a stage by its identity, reads and
-- changes the share of its own group alone; so what is done to the pipelines of a name, and what
-- becomes of their stages, is the same as if nothing else had been done at the site.
import Rollout.Proofs.Shares
import Rollout.Session

namespace Rollout

open MemoryDeployer

/-! ## What a group is told -/

/-- A plan without its number. -/
def Plan.unnumbered (p : Plan) : Plan := { p with id := ⟨0⟩ }

/-- A report without the number of its plan. -/
def Report.unnumbered : Report → Report
  | .planned plan => .planned plan.unnumbered
  | report => report

def Answer.unnumbered (a : Answer) : Answer :=
  { a with report? := a.report?.map (·.map Report.unnumbered) }

/-- Two ends of the same work are the same for a group: the deployer knows the same of its stages,
and the answers tell the same, but for the number of a plan. -/
def SameFor (group : String) (x y : Site MemoryDeployer × Except Fault Report) : Prop :=
  x.1.deployer.share group = y.1.deployer.share group ∧
    x.2.map Report.unnumbered = y.2.map Report.unnumbered

namespace Coordinator

variable {c : Coordinator} {p : Pipeline} {overrides : Properties} {group : String}
  {s s' : Site MemoryDeployer}

/-! ## One operation -/

/-- What planning comes to under any number. -/
theorem plan_cases (p : Pipeline) (r : Registry) (config : Config) (overrides : Properties) :
    (∃ fault, ∀ id, p.plan r config overrides id = .error fault) ∨
      ∃ is, (∀ id, p.plan r config overrides id = .ok ⟨id, p.name, is⟩) ∧
        ∀ i ∈ is, i.deploymentId.group = p.name := by
  unfold Pipeline.plan
  cases hinstructions : p.instructions r config overrides with
  | error fault => exact Or.inl ⟨fault, fun _ => rfl⟩
  | ok is =>
    refine Or.inr ⟨is, fun _ => rfl, fun i hi => ?_⟩
    have hplan : p.plan r config overrides ⟨0⟩ = .ok ⟨⟨0⟩, p.name, is⟩ := by
      unfold Pipeline.plan
      rw [hinstructions]
      rfl
    rw [Pipeline.deploymentId_eq_of_mem hplan hi]

theorem plan_same (h : s.deployer.share group = s'.deployer.share group) :
    SameFor group ((c.plan p overrides s).map id (·.map .planned))
      ((c.plan p overrides s').map id (·.map .planned)) := by
  unfold plan Site.newPlan
  rcases plan_cases p c.registry c.config overrides with ⟨fault, hfault⟩ | ⟨is, his, _⟩
  · simp only [hfault]
    exact ⟨h, rfl⟩
  · simp only [his]
    exact ⟨h, rfl⟩

theorem share_plan : (c.plan p overrides s).1.deployer.share group = s.deployer.share group := by
  unfold plan Site.newPlan
  rcases plan_cases p c.registry c.config overrides with ⟨fault, hfault⟩ | ⟨is, his, _⟩
  · simp only [hfault]
  · simp only [his]

theorem deploy_same (hgroup : p.name = group)
    (h : s.deployer.share group = s'.deployer.share group) :
    SameFor group ((c.deploy p overrides s).map id (·.map .planned))
      ((c.deploy p overrides s').map id (·.map .planned)) := by
  rcases plan_cases p c.registry c.config overrides with ⟨fault, hfault⟩ | ⟨is, his, hids⟩
  · rw [deploy_of_error (hfault _), deploy_of_error (hfault _)]
    exact ⟨h, rfl⟩
  · rw [hgroup] at hids
    have hsame : (⟨⟨s'.plans⟩, p.name, is⟩ : Plan).instructions =
        (⟨⟨s.plans⟩, p.name, is⟩ : Plan).instructions := rfl
    obtain ⟨hshare, hresult⟩ := Lifecycle.deploy_congr h hids hsame
    rw [deploy_of_ok (his _), deploy_of_ok (his _)]
    refine ⟨hshare, ?_⟩
    simp only [Prod.map_snd]
    rw [hresult]
    cases (Lifecycle.deploy ⟨⟨s'.plans⟩, p.name, is⟩ s'.deployer).result <;> rfl

theorem share_deploy_of_ne (hgroup : p.name ≠ group) :
    (c.deploy p overrides s).1.deployer.share group = s.deployer.share group := by
  rcases plan_cases p c.registry c.config overrides with ⟨fault, hfault⟩ | ⟨is, his, hids⟩
  · rw [deploy_of_error (hfault _)]
  · rw [deploy_of_ok (his _)]
    apply Lifecycle.share_deploy_of_ne
    intro i hi
    rw [hids i hi]
    exact hgroup

theorem deployListing_same {text : String} (hgroup : p.name = group)
    (h : s.deployer.share group = s'.deployer.share group) :
    SameFor group ((c.deployListing p text s).map id (·.map .planned))
      ((c.deployListing p text s').map id (·.map .planned)) := by
  unfold deployListing
  cases Properties.ofListing text with
  | error fault => exact ⟨h, rfl⟩
  | ok overrides => exact deploy_same hgroup h

theorem share_deployListing_of_ne {text : String} (hgroup : p.name ≠ group) :
    (c.deployListing p text s).1.deployer.share group = s.deployer.share group := by
  unfold deployListing
  cases Properties.ofListing text with
  | error fault => rfl
  | ok overrides => exact share_deploy_of_ne hgroup

/-- The states of the stages of a pipeline stand in the share of its name. -/
theorem states_same (hgroup : p.name = group)
    (h : s.deployer.share group = s'.deployer.share group) :
    ∀ id ∈ p.ids, s.deployer.state id = s'.deployer.state id := by
  intro id hmem
  have hid : id.group = group := (Pipeline.group_eq_of_mem_ids hmem).trans hgroup
  exact ((share_eq_iff.1 h).1 id hid).1

theorem undeploy_same (hgroup : p.name = group)
    (h : s.deployer.share group = s'.deployer.share group) :
    SameFor group ((undeploy p s).map id (·.map .undeployed))
      ((undeploy p s').map id (·.map .undeployed)) := by
  rw [undeploy_eq, undeploy_eq]
  refine ⟨share_sweepEach_congr h p.ids, ?_⟩
  simp only [Prod.map_snd, Lifecycle.takedown_congr (states_same hgroup h)]

theorem share_undeploy_of_ne (hgroup : p.name ≠ group) :
    (undeploy p s).1.deployer.share group = s.deployer.share group := by
  rw [undeploy_eq]
  apply share_sweepEach_of_ne
  intro id hid
  rw [Pipeline.group_eq_of_mem_ids hid]
  exact hgroup

theorem status_same (hgroup : p.name = group)
    (h : s.deployer.share group = s'.deployer.share group) :
    SameFor group ((status p s).map id (·.map .status)) ((status p s').map id (·.map .status)) := by
  have hstates : s.deployer.statesOf p.ids = s'.deployer.statesOf p.ids := by
    unfold statesOf
    congr 1
    apply List.map_congr_left
    intro id hid
    rw [states_same hgroup h id hid]
  rw [status_eq, status_eq]
  refine ⟨?_, ?_⟩
  · simp only [Prod.map_fst, id_eq, share_askEach]
    exact h
  · simp only [Prod.map_snd, Status.told, hstates]

theorem share_status : (status p s).1.deployer.share group = s.deployer.share group := by
  rw [status_eq]
  exact share_askEach s.deployer p.ids group

theorem perform_same {op : Operation} (hop : op.pipeline? = some p) (hgroup : p.name = group)
    (h : s.deployer.share group = s'.deployer.share group) :
    SameFor group (c.perform s op) (c.perform s' op) := by
  cases op with
  | undeployEach ps => cases hop
  | plan q overrides => exact plan_same h
  | deploy q overrides =>
    cases hop
    exact deploy_same hgroup h
  | deployListing q text =>
    cases hop
    exact deployListing_same hgroup h
  | undeploy q =>
    cases hop
    exact undeploy_same hgroup h
  | status q =>
    cases hop
    exact status_same hgroup h

theorem share_perform_of_ne {op : Operation} (hop : op.pipeline? = some p)
    (hgroup : p.name ≠ group) :
    (c.perform s op).1.deployer.share group = s.deployer.share group := by
  cases op with
  | undeployEach ps => cases hop
  | plan q overrides => exact share_plan
  | deploy q overrides =>
    cases hop
    exact share_deploy_of_ne hgroup
  | deployListing q text =>
    cases hop
    exact share_deployListing_of_ne hgroup
  | undeploy q =>
    cases hop
    exact share_undeploy_of_ne hgroup
  | status q => exact share_status

/-! ## One act -/

theorem act_answer (c : Coordinator) (s : Site MemoryDeployer) (a : Act) :
    (c.act s a).2.act = a := by
  cases a <;> rfl

/-- An act of a group comes to the same for it where its shares are the same. -/
theorem act_same {a : Act} (ha : a.group? = some group)
    (h : s.deployer.share group = s'.deployer.share group) :
    (c.act s a).1.deployer.share group = (c.act s' a).1.deployer.share group ∧
      (c.act s a).2.unnumbered = (c.act s' a).2.unnumbered := by
  cases a with
  | operate op =>
    obtain ⟨p, hop, hgroup⟩ := Option.map_eq_some_iff.1 ha
    obtain ⟨hshare, hreport⟩ := perform_same (c := c) hop hgroup h
    refine ⟨hshare, ?_⟩
    unfold act Answer.unnumbered
    simp only [Prod.map_snd, Option.map_some, hreport]
  | refuse id reason => exact ⟨share_refuse_congr h id reason, rfl⟩
  | overrideState id state => exact ⟨share_overrideState_congr h id state, rfl⟩

/-- An act of another group leaves the share of a group as it is. -/
theorem share_act_of_ne {a : Act} {other : String} (ha : a.group? = some other)
    (hne : other ≠ group) : (c.act s a).1.deployer.share group = s.deployer.share group := by
  cases a with
  | operate op =>
    obtain ⟨p, hop, rfl⟩ := Option.map_eq_some_iff.1 ha
    exact share_perform_of_ne hop hne
  | refuse id reason =>
    cases ha
    exact share_refuse_of_ne hne reason
  | overrideState id state =>
    cases ha
    exact share_overrideState_of_ne hne state

/-! ## A session -/

/-- A session comes to the same for a group as its acts of that group alone, where the shares of
the group are the same. -/
theorem run_same {acts : List Act} (hacts : ∀ a ∈ acts, a.group?.isSome)
    (h : s.deployer.share group = s'.deployer.share group) :
    (c.run acts s).1.deployer.share group =
        (c.run (acts.filter (·.group? = some group)) s').1.deployer.share group ∧
      ((c.run acts s).2.filter (·.act.group? = some group)).map Answer.unnumbered =
        (c.run (acts.filter (·.group? = some group)) s').2.map Answer.unnumbered := by
  induction acts generalizing s s' with
  | nil => exact ⟨h, rfl⟩
  | cons a rest ih =>
    rw [List.forall_mem_cons] at hacts
    obtain ⟨other, hother⟩ := Option.isSome_iff_exists.1 hacts.1
    by_cases ha : a.group? = some group
    · obtain ⟨hshare, hanswer⟩ := act_same (c := c) ha h
      obtain ⟨hshares, hanswers⟩ := ih hacts.2 hshare
      rw [List.filter_cons_of_pos (by simpa using ha)]
      refine ⟨hshares, ?_⟩
      simp only [run]
      rw [List.filter_cons_of_pos (by simpa [act_answer] using ha), List.map_cons, List.map_cons,
        hanswer, hanswers]
    · have hne : other ≠ group := by
        rintro rfl
        exact ha hother
      have hshare := (share_act_of_ne (c := c) (s := s) hother hne).trans h
      obtain ⟨hshares, hanswers⟩ := ih hacts.2 hshare
      rw [List.filter_cons_of_neg (by simpa using ha)]
      refine ⟨hshares, ?_⟩
      simp only [run]
      rw [List.filter_cons_of_neg (by simpa [act_answer] using ha), hanswers]

/-! ## The law -/

/-- What is done to the pipelines of one name is answered as if nothing else were done at the
site, but for the numbers of plans, and the stages of that group end up with the states and
instructions they would have then. -/
theorem pipelines_do_not_interfere (c : Coordinator) (s : Site MemoryDeployer) (group : String)
    {acts : List Act} (hacts : ∀ a ∈ acts, a.group?.isSome) :
    ((c.run acts s).2.filter (·.act.group? = some group)).map Answer.unnumbered =
        (c.run (acts.filter (·.group? = some group)) s).2.map Answer.unnumbered ∧
      ∀ id : StageId, id.group = group →
        (c.run acts s).1.deployer.state id =
            (c.run (acts.filter (·.group? = some group)) s).1.deployer.state id ∧
          (c.run acts s).1.deployer.instruction? id =
            (c.run (acts.filter (·.group? = some group)) s).1.deployer.instruction? id := by
  obtain ⟨hshare, hanswers⟩ :=
    run_same (c := c) hacts (Eq.refl (s.deployer.share group))
  refine ⟨hanswers, fun id hid => ?_⟩
  obtain ⟨hstate, hinstruction, _⟩ := (share_eq_iff.1 hshare).1 id hid
  exact ⟨hstate, hinstruction⟩

/-- Two stages, of which the first one has a label. -/
def rivalStages (label : String) : List Stage :=
  [.make "time" (some label) ∅ none (some "x"), .make "log" none ∅ (some "x") none]

/-- What is done to a pipeline. -/
def ownActs (p : Pipeline) : List Act :=
  [.operate (.deploy p ∅), .overrideState ⟨"a", "b.c"⟩ .failed, .operate (.status p)]

/-- What is done to a pipeline and to its rival, in between. -/
def rivalActs (p q : Pipeline) : List Act :=
  [.operate (.deploy p ∅), .refuse ⟨"a.b", "c"⟩ "no room", .operate (.deploy q ∅),
    .overrideState ⟨"a", "b.c"⟩ .failed, .operate (.undeploy q), .operate (.status p)]

/-- A coordinator that knows the artifacts of such stages. -/
def boundCoordinator : Coordinator := ⟨Pipeline.boundRegistry, {}⟩

/-- A stage of a pipeline and one of its rival look alike, and what is done to the rival neither
shows in the answers for the pipeline nor takes its stage down. -/
theorem rivals_that_look_alike_do_not_interfere :
    StageId.text ⟨"a", "b.c"⟩ = StageId.text ⟨"a.b", "c"⟩ ∧
    ∃ p q : Pipeline,
      Pipeline.build "a" "" (rivalStages "b.c") = .ok p ∧
      Pipeline.build "a.b" "" (rivalStages "c") = .ok q ∧
      (∀ a ∈ rivalActs p q, a.group?.isSome) ∧
      ((boundCoordinator.run (rivalActs p q) { deployer := default }).2.filter
          (·.act.group? = some "a")).map Answer.unnumbered =
        (boundCoordinator.run (ownActs p) { deployer := default }).2.map Answer.unnumbered ∧
      (boundCoordinator.run (rivalActs p q) { deployer := default }).1.deployer.state
          ⟨"a", "b.c"⟩ = .failed := by
  have hrun : ((Pipeline.build "a" "" (rivalStages "b.c")).toOption.bind fun p =>
      (Pipeline.build "a.b" "" (rivalStages "c")).toOption.map fun q =>
      (p.name, q.name,
        (boundCoordinator.run (rivalActs p q) { deployer := default }).1.deployer.state
          ⟨"a", "b.c"⟩)) = some ("a", "a.b", .failed) := by
    decide +kernel
  simp only [Option.bind_eq_some_iff, Option.map_eq_some_iff, Traversal.toOption_eq_some_iff,
    Prod.mk.injEq] at hrun
  obtain ⟨p, hp, q, hq, hpname, hqname, hstate⟩ := hrun
  have hacts : ∀ a ∈ rivalActs p q, a.group?.isSome := by
    simp [rivalActs, Act.group?, Operation.pipeline?]
  have hown : (rivalActs p q).filter (·.group? = some "a") = ownActs p := by
    simp [rivalActs, ownActs, Act.group?, Operation.pipeline?, hpname, hqname]
  obtain ⟨hanswers, _⟩ :=
    pipelines_do_not_interfere boundCoordinator { deployer := default } "a" hacts
  rw [hown] at hanswers
  exact ⟨by decide, p, q, hp, hq, hacts, hanswers, hstate⟩

end Coordinator

end Rollout
