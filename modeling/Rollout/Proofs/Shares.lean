-- The share that a group has in a deployer that only remembers: what the deployer knows of the
-- stages of that group. Requests read and change the share of the group of their stage alone, even
-- where identities of two groups look alike.
import Rollout.Proofs.Asking
import Rollout.Proofs.DeployEndings
import Rollout.Proofs.PlanContents
import Rollout.Proofs.TakingDown

namespace Rollout

/-- What a deployer knows of the stages of one group, by their labels, and the state of a stage
that it started. -/
@[ext]
structure Share where
  state : String → StageState
  instruction? : String → Option Instruction
  refusal? : String → Option String
  deployState : StageState

namespace MemoryDeployer

def share (d : MemoryDeployer) (group : String) : Share where
  state label := d.state ⟨group, label⟩
  instruction? label := d.instruction? ⟨group, label⟩
  refusal? label := d.refusal? ⟨group, label⟩
  deployState := d.deployState

variable {d d' : MemoryDeployer} {group : String}

theorem share_eq_iff :
    d.share group = d'.share group ↔
      (∀ id : StageId, id.group = group → d.state id = d'.state id ∧
        d.instruction? id = d'.instruction? id ∧ d.refusal? id = d'.refusal? id) ∧
      d.deployState = d'.deployState := by
  constructor
  · intro h
    refine ⟨?_, congrArg Share.deployState h⟩
    rintro ⟨_, label⟩ rfl
    exact ⟨congrFun (congrArg Share.state h) label, congrFun (congrArg Share.instruction? h) label,
      congrFun (congrArg Share.refusal? h) label⟩
  · rintro ⟨hstages, hdeployState⟩
    apply Share.ext
    · exact funext fun label => (hstages ⟨group, label⟩ rfl).1
    · exact funext fun label => (hstages ⟨group, label⟩ rfl).2.1
    · exact funext fun label => (hstages ⟨group, label⟩ rfl).2.2
    · exact hdeployState

/-! ## Requests to start stages -/

/-- A request changes a share as the share tells. -/
theorem share_deploy_congr (h : d.share group = d'.share group) (i : Instruction) :
    (d.deploy i).1.share group = (d'.deploy i).1.share group := by
  obtain ⟨hstages, hdeployState⟩ := share_eq_iff.1 h
  refine share_eq_iff.2 ⟨fun id hid => ?_, ?_⟩
  · obtain ⟨hstate, hinstruction, hrefusal⟩ := hstages id hid
    rw [state_deploy, state_deploy, instruction?_deploy, instruction?_deploy, refusal?_deploy,
      refusal?_deploy, hstate, hinstruction, hrefusal, hdeployState]
    by_cases hsame : id = i.deploymentId
    · subst hsame
      simp [hrefusal]
    · simp [hsame]
  · rw [deployState_deploy, deployState_deploy, hdeployState]

/-- A request leaves the shares of other groups as they are. -/
theorem share_deploy_of_ne {i : Instruction} (h : i.deploymentId.group ≠ group) :
    (d.deploy i).1.share group = d.share group := by
  refine share_eq_iff.2 ⟨fun id hid => ?_, deployState_deploy d i⟩
  have hne : id ≠ i.deploymentId := by
    rintro rfl
    exact h hid
  rw [state_deploy, instruction?_deploy, refusal?_deploy]
  simp [hne]

theorem share_deployEach_congr (h : d.share group = d'.share group) (is : List Instruction) :
    (d.deployEach is).share group = (d'.deployEach is).share group := by
  induction is generalizing d d' with
  | nil => exact h
  | cons i is ih =>
    rw [deployEach_cons, deployEach_cons]
    exact ih (share_deploy_congr h i)

theorem share_deployEach_of_ne {is : List Instruction}
    (h : ∀ i ∈ is, i.deploymentId.group ≠ group) :
    (d.deployEach is).share group = d.share group := by
  induction is generalizing d with
  | nil => rfl
  | cons i is ih =>
    rw [deployEach_cons, ih fun j hj => h j (List.mem_cons_of_mem i hj),
      share_deploy_of_ne (h i List.mem_cons_self)]

/-! ## Requests to take stages down -/

theorem share_sweepEach_congr (h : d.share group = d'.share group) (ids : List StageId) :
    (d.sweepEach ids).share group = (d'.sweepEach ids).share group := by
  obtain ⟨hstages, hdeployState⟩ := share_eq_iff.1 h
  refine share_eq_iff.2 ⟨fun id hid => ?_, ?_⟩
  · obtain ⟨hstate, hinstruction, hrefusal⟩ := hstages id hid
    unfold refusal? at hrefusal ⊢
    rw [state_sweepEach, state_sweepEach, instruction?_sweepEach, instruction?_sweepEach,
      refusals_sweepEach, refusals_sweepEach, hstate, hinstruction, hrefusal]
    exact ⟨rfl, rfl, rfl⟩
  · rw [deployState_sweepEach, deployState_sweepEach, hdeployState]

theorem share_sweepEach_of_ne {ids : List StageId} (h : ∀ id ∈ ids, id.group ≠ group) :
    (d.sweepEach ids).share group = d.share group := by
  refine share_eq_iff.2 ⟨fun id hid => ?_, deployState_sweepEach d ids⟩
  have hout : id ∉ ids := fun hmem => h id hmem hid
  unfold refusal?
  rw [state_sweepEach, instruction?_sweepEach, refusals_sweepEach]
  simp [hout]

/-! ## Changes behind the back of the coordinator -/

theorem share_refuse_congr (h : d.share group = d'.share group) (id : StageId)
    (reason : String) : (d.refuse id reason).share group = (d'.refuse id reason).share group := by
  obtain ⟨hstages, hdeployState⟩ := share_eq_iff.1 h
  refine share_eq_iff.2 ⟨fun id' hid' => ?_, hdeployState⟩
  obtain ⟨hstate, hinstruction, hrefusal⟩ := hstages id' hid'
  rw [refusal?_refuse, refusal?_refuse, hrefusal]
  exact ⟨hstate, hinstruction, rfl⟩

theorem share_refuse_of_ne {id : StageId} (h : id.group ≠ group) (reason : String) :
    (d.refuse id reason).share group = d.share group := by
  refine share_eq_iff.2 ⟨fun id' hid' => ⟨rfl, rfl, ?_⟩, rfl⟩
  rw [refusal?_refuse, if_neg]
  rintro rfl
  exact h hid'

theorem share_overrideState_congr (h : d.share group = d'.share group) (id : StageId)
    (state : StageState) :
    (d.overrideState id state).share group = (d'.overrideState id state).share group := by
  obtain ⟨hstages, hdeployState⟩ := share_eq_iff.1 h
  refine share_eq_iff.2 ⟨fun id' hid' => ?_, hdeployState⟩
  obtain ⟨hstate, hinstruction, hrefusal⟩ := hstages id' hid'
  rw [state_overrideState, state_overrideState, hstate]
  exact ⟨rfl, hinstruction, hrefusal⟩

theorem share_overrideState_of_ne {id : StageId} (h : id.group ≠ group) (state : StageState) :
    (d.overrideState id state).share group = d.share group := by
  refine share_eq_iff.2 ⟨fun id' hid' => ⟨?_, rfl, rfl⟩, rfl⟩
  rw [state_overrideState, if_neg]
  rintro rfl
  exact h hid'

/-! ## Questions -/

theorem share_record (d : MemoryDeployer) (kind : CallKind) (id : StageId) (group : String) :
    (d.record kind id).share group = d.share group := rfl

/-- Questions change no share. -/
theorem share_askEach (d : MemoryDeployer) (ids : List StageId) (group : String) :
    (d.askEach ids).share group = d.share group := by
  induction ids generalizing d with
  | nil => rfl
  | cons id ids ih =>
    show ((d.record .status id).askEach ids).share group = d.share group
    rw [ih, share_record]

end MemoryDeployer

/-! ## The work on a plan -/

namespace Lifecycle

open MemoryDeployer

variable {d d' : MemoryDeployer} {group : String} {made made' : Plan}

/-- Deploying a plan puts the requests for its first stages, up to some place. -/
theorem exists_deployer_deploy (made : Plan) (d : MemoryDeployer) :
    ∃ asked ⊆ made.instructions,
      (Lifecycle.deploy made d).deployer = d.deployEach asked := by
  rcases accepted_or_first_refused d made.instructions with
    hall | ⟨before, i, after, reason, hmade, hbefore, hi⟩
  · rw [deploy_of_accepted hall]
    exact ⟨made.instructions, List.Subset.refl _, rfl⟩
  · rw [deploy_of_refused hmade hbefore hi]
    refine ⟨before ++ [i], ?_, rfl⟩
    rw [hmade]
    simp

theorem share_deploy_of_ne (h : ∀ i ∈ made.instructions, i.deploymentId.group ≠ group) :
    (Lifecycle.deploy made d).deployer.share group = d.share group := by
  obtain ⟨asked, hasked, hdeployer⟩ := exists_deployer_deploy made d
  rw [hdeployer]
  exact share_deployEach_of_ne fun i hi => h i (hasked hi)

/-- Plans with the same instructions for one group come to the same where the shares of that group
are the same. -/
theorem deploy_congr (h : d.share group = d'.share group)
    (hgroup : ∀ i ∈ made.instructions, i.deploymentId.group = group)
    (hmade : made'.instructions = made.instructions) :
    (Lifecycle.deploy made d).deployer.share group =
        (Lifecycle.deploy made' d').deployer.share group ∧
      (Lifecycle.deploy made d).result = (Lifecycle.deploy made' d').result := by
  have hrefusal : ∀ i ∈ made.instructions,
      d.refusal? i.deploymentId = d'.refusal? i.deploymentId := fun i hi =>
    ((share_eq_iff.1 h).1 i.deploymentId (hgroup i hi)).2.2
  rcases accepted_or_first_refused d made.instructions with
    hall | ⟨before, i, after, reason, hsplit, hbefore, hi⟩
  · have hall' : ∀ i ∈ made'.instructions, d'.refusal? i.deploymentId = none := by
      intro i hi
      rw [hmade] at hi
      rw [← hrefusal i hi, hall i hi]
    rw [deploy_of_accepted hall, deploy_of_accepted hall', hmade]
    refine ⟨share_deployEach_congr h _, ?_⟩
    unfold Plan.ids
    rw [hmade]
  · have hsplit' : made'.instructions = before ++ i :: after := hmade.trans hsplit
    have hbefore' : ∀ b ∈ before, d'.refusal? b.deploymentId = none := by
      intro b hb
      rw [← hrefusal b (by simp [hsplit, hb]), hbefore b hb]
    have hi' : d'.refusal? i.deploymentId = some reason := by
      rw [← hrefusal i (by simp [hsplit]), hi]
    rw [deploy_of_refused hsplit hbefore hi, deploy_of_refused hsplit' hbefore' hi']
    exact ⟨share_deployEach_congr h _, rfl⟩

end Lifecycle

end Rollout
