-- Which stages hold an instruction. A deployer keeps the states and the instructions of stages
-- apart from each other, and a stage that is refused fails but keeps the instruction it had.
-- Unless states are changed behind its back, a deployer that started with none never holds an
-- instruction of a stage that is not there, and never lacks one of a stage that is deployed.
import Rollout.Linear
import Rollout.Proofs.SideBySide
import Rollout.Proofs.Starting
import Rollout.Proofs.TakingDown
import Rollout.Session

namespace Rollout

/-! ## The deployer -/

/-- The instructions and the states of a deployer fit together. -/
structure Accounted (d : MemoryDeployer) : Prop where
  deployState_eq : d.deployState = .deployed
  present : ∀ id i, d.instruction? id = some i → d.state id ≠ .unknown ∧ d.state id ≠ .undeployed
  own : ∀ id i, d.instruction? id = some i → i.deploymentId = id
  held : ∀ id, d.state id = .deployed → ∃ i, d.instruction? id = some i

namespace Accounted

open MemoryDeployer

variable {d : MemoryDeployer}

theorem new (limit : Nat) : Accounted (.new .deployed limit) where
  deployState_eq := rfl
  present := by
    intro id i hi
    cases hi
  own := by
    intro id i hi
    cases hi
  held := by
    intro id hstate
    cases hstate

theorem record (h : Accounted d) (kind : CallKind) (id : StageId) :
    Accounted (d.record kind id) :=
  ⟨h.deployState_eq, h.present, h.own, h.held⟩

theorem refuse (h : Accounted d) (id : StageId) (reason : String) :
    Accounted (d.refuse id reason) :=
  ⟨h.deployState_eq, h.present, h.own, h.held⟩

/-- A stage that is refused is present as failed, with or without an instruction. -/
theorem deploy (h : Accounted d) (i : Instruction) : Accounted (d.deploy i).1 where
  deployState_eq := by
    rw [deployState_deploy]
    exact h.deployState_eq
  present := by
    intro id j hj
    rw [instruction?_deploy] at hj
    rw [state_deploy, h.deployState_eq]
    by_cases hid : id = i.deploymentId
    · rw [if_pos hid]
      split <;> decide
    · rw [if_neg fun hboth => hid hboth.1] at hj
      rw [if_neg hid]
      exact h.present id j hj
  own := by
    intro id j hj
    rw [instruction?_deploy] at hj
    split at hj
    · next hboth =>
      cases hj
      exact hboth.1.symm
    · exact h.own id j hj
  held := by
    intro id hstate
    rw [state_deploy] at hstate
    rw [instruction?_deploy]
    by_cases hid : id = i.deploymentId
    · rw [if_pos hid] at hstate
      cases hrefusal : d.refusal? i.deploymentId with
      | none => exact ⟨i, if_pos ⟨hid, rfl⟩⟩
      | some reason =>
        rw [hrefusal] at hstate
        cases hstate
    · rw [if_neg hid] at hstate
      obtain ⟨j, hj⟩ := h.held id hstate
      exact ⟨j, by rw [if_neg fun hboth => hid hboth.1, hj]⟩

theorem undeploy (h : Accounted d) (id : StageId) : Accounted (d.undeploy id).1 where
  deployState_eq := h.deployState_eq
  present := by
    intro id' i hi
    rw [instruction?_undeploy] at hi
    rw [state_undeploy]
    split at hi
    · cases hi
    · next hid =>
      rw [if_neg hid]
      exact h.present id' i hi
  own := by
    intro id' i hi
    rw [instruction?_undeploy] at hi
    split at hi
    · cases hi
    · exact h.own id' i hi
  held := by
    intro id' hstate
    rw [state_undeploy] at hstate
    rw [instruction?_undeploy]
    split at hstate
    · cases hstate
    · next hid =>
      rw [if_neg hid]
      exact h.held id' hstate

theorem kept : Kept Accounted where
  deploy := deploy
  undeploy := undeploy
  status := fun h id => h.record .status id

/-- Nothing that was swept holds an instruction: what is not there had none before. -/
theorem instruction?_sweepEach_of_mem (h : Accounted d) {ids : List StageId} {id : StageId}
    (hid : id ∈ ids) : (d.sweepEach ids).instruction? id = none := by
  rw [instruction?_sweepEach]
  cases habsent : (d.state id).isAbsent with
  | false => exact if_pos ⟨hid, rfl⟩
  | true =>
    rw [if_neg fun hboth => Bool.noConfusion hboth.2]
    cases hi : d.instruction? id with
    | none => rfl
    | some i =>
      rw [StageState.isAbsent_eq_false_iff.2 (h.present id i hi)] at habsent
      cases habsent

end Accounted

/-! ## Sessions -/

namespace Coordinator

theorem act_accounted (c : Coordinator) {s : Site MemoryDeployer} (h : Accounted s.deployer)
    {a : Act} (ha : ∀ id state, a ≠ .overrideState id state) :
    Accounted (c.act s a).1.deployer := by
  cases a with
  | operate op => exact perform_keeps Accounted.kept c op h
  | refuse id reason => exact h.refuse id reason
  | overrideState id state => exact absurd rfl (ha id state)

theorem run_accounted (c : Coordinator) {acts : List Act}
    (hacts : ∀ a ∈ acts, ∀ id state, a ≠ .overrideState id state) {s : Site MemoryDeployer}
    (h : Accounted s.deployer) : Accounted (c.run acts s).1.deployer := by
  induction acts generalizing s with
  | nil => exact h
  | cons a rest ih =>
    rw [List.forall_mem_cons] at hacts
    exact ih hacts.2 (c.act_accounted h hacts.1)

/-- However a session with a new deployer went, the instructions and the states fit together if
no state was changed behind the deployer's back; so no stage of a pipeline that is then taken down
is left with an instruction. -/
theorem no_instruction_is_orphaned (c : Coordinator) (limit : Nat) (sink : Sink)
    (events : EventLog) (plans : Nat) {acts : List Act}
    (hacts : ∀ a ∈ acts, ∀ id state, a ≠ .overrideState id state) :
    ∃ s answers, c.run acts ⟨.new .deployed limit, sink, events, plans⟩ = (s, answers) ∧
      Accounted s.deployer ∧
      ∀ p, ∃ s' report, undeploy p s = (s', .ok report) ∧
        ∀ id ∈ p.ids, s'.deployer.instruction? id = none := by
  have h := c.run_accounted hacts
    (s := ⟨.new .deployed limit, sink, events, plans⟩) (Accounted.new limit)
  refine ⟨_, _, rfl, h, fun p => ⟨_, _, undeploy_eq p _, fun id hid => ?_⟩⟩
  exact h.instruction?_sweepEach_of_mem hid

/-- Deploys a pipeline twice; the second time the deployer refuses a stage. -/
def refusedAgain (p : Pipeline) (id : StageId) : List Act :=
  [.operate (.deploy p ∅), .refuse id "no room", .operate (.deploy p ∅), .operate (.status p)]

/-- A stage that is refused the second time has failed and keeps its instruction, until the
pipeline is taken down. -/
theorem refused_again_holds_its_instruction :
    ∃ (l : Linear) (s : Site MemoryDeployer) (answers : List Answer),
      Linear.build "ticktock" ["time", "log"] = .ok l ∧
      (∀ a ∈ refusedAgain l.pipeline ⟨"ticktock", "log"⟩, ∀ id state,
        a ≠ .overrideState id state) ∧
      run ⟨l.registry, {}⟩ (refusedAgain l.pipeline ⟨"ticktock", "log"⟩)
        ⟨.new .deployed 100, .collect, {}, 0⟩ = (s, answers) ∧
      s.deployer.state ⟨"ticktock", "log"⟩ = .failed ∧
      (∃ i, s.deployer.instruction? ⟨"ticktock", "log"⟩ = some i ∧
        i.deploymentId = ⟨"ticktock", "log"⟩) ∧
      ∃ s' report, undeploy l.pipeline s = (s', .ok report) ∧
        ∀ id ∈ l.pipeline.ids, s'.deployer.instruction? id = none := by
  have hrun : ((Linear.build "ticktock" ["time", "log"]).toOption.map fun l =>
      let s := (run ⟨l.registry, {}⟩ (refusedAgain l.pipeline ⟨"ticktock", "log"⟩)
        ⟨.new .deployed 100, .collect, {}, 0⟩).1
      (s.deployer.state ⟨"ticktock", "log"⟩,
        (s.deployer.instruction? ⟨"ticktock", "log"⟩).isSome)) = some (.failed, true) := by
    decide +kernel
  obtain ⟨l, hl, hanswer⟩ := Option.map_eq_some_iff.1 hrun
  rw [Traversal.toOption_eq_some_iff] at hl
  obtain ⟨hstate, hholds⟩ := Prod.mk.inj hanswer
  have hacts : ∀ a ∈ refusedAgain l.pipeline ⟨"ticktock", "log"⟩, ∀ id state,
      a ≠ .overrideState id state := by
    simp [refusedAgain]
  obtain ⟨s, answers, hs, haccounted, hdown⟩ :=
    no_instruction_is_orphaned ⟨l.registry, {}⟩ 100 .collect {} 0 hacts
  rw [hs] at hstate hholds
  obtain ⟨i, hi⟩ := Option.isSome_iff_exists.1 hholds
  exact ⟨l, s, answers, hl, hacts, hs, hstate, ⟨i, hi, haccounted.own _ i hi⟩, hdown l.pipeline⟩

end Coordinator

end Rollout
