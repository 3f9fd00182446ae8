-- Which fault planning reports. Planning goes over the stages three times: it places them, then
-- it reads their counts, then it settles their libraries. Each time over meets the stages against
-- the flow. So what is wrong with a stage counts first by its phase, and only then by its place.
import Rollout.Proofs.PartitionAgreement
import Rollout.Proofs.PlanFaults

namespace Rollout

/-! ## The counts -/

namespace Partition

theorem count?_eq_none_iff {written : String} :
    count? written.toList = none ↔ ¬ ∃ n, Denotes written n ∧ 0 < n ∧ n ≤ maxCount := by
  rw [Option.eq_none_iff_forall_ne_some]
  simp only [ne_eq, count?_eq_some_iff, not_exists]

/-- The walk comes to its end as reading all counts does, one after the other. -/
theorem propagateFrom_outcome (defaultKey : String) (down : Downstream)
    (flow : List (Stage × Properties)) :
    (propagateFrom defaultKey down flow).2 =
      (flow.mapM fun e => instances e.1 e.2).map fun _ => () := by
  induction flow generalizing down with
  | nil => rfl
  | cons e rest ih =>
    obtain ⟨s, m⟩ := e
    unfold propagateFrom
    rw [step_eq, List.mapM_cons]
    cases hn : instances s m with
    | error fault => rfl
    | ok n =>
      simp only [Except.map, bind, Except.bind, ih]
      cases rest.mapM fun e => instances e.1 e.2 <;> rfl

end Partition

/-! ## What can be wrong with a stage -/

namespace Planning

open Rollout.Partition Rollout.Traversal

variable (r : Registry) (config : Config) (overrides : Properties)

/-- A stage neither takes nor gives data. -/
def Unbound (s : Stage) : Prop := s.hasInput = false ∧ s.hasOutput = false

/-- Nothing is registered for the name of a stage and the kind of its role. -/
def Unregistered (s : Stage) (role : Role) : Prop :=
  s.role = .ok role ∧ r.coordinates? s.name role.kind = none

/-- The overrides give a stage a count that stands for no number of instances. -/
def Miscounted (s : Stage) (written : String) : Prop :=
  (overrides.merge config.propertyLead s.label).get? Key.count = some written ∧
    ¬ ∃ n, Denotes written n ∧ 1 ≤ n ∧ n ≤ maxCount

/-- A token is neither coordinates nor the name of a library. -/
def Unresolvable (token : String) : Prop :=
  Coordinates.parse? token = none ∧ r.coordinates? token .library = none

/-- A stage finds no place. -/
def Unplaced (s : Stage) : Prop := Unbound s ∨ ∃ role, Unregistered r s role

/-- A stage has a count of no use. -/
def Uncounted (s : Stage) : Prop := ∃ written, Miscounted config overrides s written

/-- A stage lists a token that leads nowhere. -/
def Unsettled (s : Stage) : Prop :=
  ∃ list, s.parameter? config.includesParameter = some list ∧
    ∃ token ∈ Includes.tokens list, Unresolvable r token

/-! ## What each time over reports -/

/-- What is reported of a stage that finds no place. -/
def ReportsPlace (s : Stage) (fault : Fault) : Prop :=
  (Unbound s ∧ fault = .ambiguousRole s.label) ∨
    ∃ role, Unregistered r s role ∧ fault = .notRegistered s.name role.kind

/-- What is reported of a stage with a count of no use. -/
def ReportsCount (s : Stage) (fault : Fault) : Prop :=
  ∃ written, Miscounted config overrides s written ∧
    fault = .invalidProperty s.label Key.count written

/-- What is reported of a stage with a token that leads nowhere: the first such token. -/
def ReportsToken (s : Stage) (fault : Fault) : Prop :=
  ∃ list token, s.parameter? config.includesParameter = some list ∧
    IsFirst (Unresolvable r) (Includes.tokens list) token ∧ fault = .unresolvedLibrary token

variable {r config overrides}

theorem ofFlow?_eq_none_iff {takes gives : Bool} :
    Role.ofFlow? takes gives = none ↔ takes = false ∧ gives = false := by
  cases takes <;> cases gives <;> decide

theorem place_eq_error_iff_reports {s : Stage} {fault : Fault} :
    place r s = .error fault ↔ ReportsPlace r s fault := by
  rw [place_eq_error_iff, Stage.role_eq_error_iff, ofFlow?_eq_none_iff]
  unfold ReportsPlace Unbound Unregistered
  simp only [Registry.resolve_eq_error_iff, and_assoc]

theorem fails_place_iff {s : Stage} : Fails (place r) s ↔ Unplaced r s := by
  unfold Fails Unplaced
  simp only [place_eq_error_iff_reports]
  constructor
  · rintro ⟨fault, ⟨hunbound, _⟩ | ⟨role, hunregistered, _⟩⟩
    · exact Or.inl hunbound
    · exact Or.inr ⟨role, hunregistered⟩
  · rintro (hunbound | ⟨role, hunregistered⟩)
    · exact ⟨_, Or.inl ⟨hunbound, rfl⟩⟩
    · exact ⟨_, Or.inr ⟨role, hunregistered, rfl⟩⟩

/-- The instances of a stage as the overrides ask for them. -/
def instancesOf (config : Config) (overrides : Properties) (s : Stage) : Except Fault Nat :=
  instances s (overrides.merge config.propertyLead s.label)

theorem instancesOf_eq_error_iff {s : Stage} {fault : Fault} :
    instancesOf config overrides s = .error fault ↔ ReportsCount config overrides s fault := by
  unfold instancesOf ReportsCount Miscounted
  rw [instances_eq_error_iff]
  simp only [count?_eq_none_iff, and_assoc, Nat.succ_le_iff]

theorem fails_instancesOf_iff {s : Stage} :
    Fails (instancesOf config overrides) s ↔ Uncounted config overrides s := by
  unfold Fails Uncounted
  simp only [instancesOf_eq_error_iff]
  constructor
  · rintro ⟨_, written, hmiscounted, _⟩
    exact ⟨written, hmiscounted⟩
  · rintro ⟨written, hmiscounted⟩
    exact ⟨_, written, hmiscounted, rfl⟩

theorem fails_resolveLibrary_iff {token : String} :
    Fails r.resolveLibrary token ↔ Unresolvable r token := by
  unfold Fails Unresolvable
  simp only [Registry.resolveLibrary_eq_error_iff]
  constructor
  · rintro ⟨_, hparse, hfound, _⟩
    exact ⟨hparse, hfound⟩
  · rintro ⟨hparse, hfound⟩
    exact ⟨_, hparse, hfound, rfl⟩

/-- A list of libraries is reported by its first token that leads nowhere. -/
theorem resolve_eq_error_iff_isFirst {list : String} {fault : Fault} :
    Includes.resolve r list = .error fault ↔
      ∃ token, IsFirst (Unresolvable r) (Includes.tokens list) token ∧
        fault = .unresolvedLibrary token := by
  refine Includes.resolve_eq_error_iff.trans ((mapM_eq_error_iff_reports
    (fun _ => fails_resolveLibrary_iff) fun _ _ => Registry.resolveLibrary_eq_error_iff).trans ?_)
  refine exists_congr fun token => and_congr_right fun hfirst => ?_
  obtain ⟨hparse, hfound⟩ := hfirst.holds
  simp [hparse, hfound]

theorem settleIncludes_eq_error_iff_reports {s : Stage} {fault : Fault} :
    settleIncludes r config s = .error fault ↔ ReportsToken r config s fault := by
  rw [settleIncludes_eq_error_iff]
  unfold ReportsToken
  simp only [resolve_eq_error_iff_isFirst, exists_and_left]

theorem fails_settleIncludes_iff {s : Stage} :
    Fails (settleIncludes r config) s ↔ Unsettled r config s := by
  have hfails : ∀ list, (∃ fault, Includes.resolve r list = .error fault) ↔
      ∃ token ∈ Includes.tokens list, Unresolvable r token := by
    intro list
    simp only [Includes.resolve_eq_error_iff, ← fails_resolveLibrary_iff]
    exact fails_mapM_iff
  unfold Fails Unsettled
  simp only [settleIncludes_eq_error_iff, ← hfails]
  constructor
  · rintro ⟨fault, list, hlist, hfault⟩
    exact ⟨list, hlist, fault, hfault⟩
  · rintro ⟨list, hlist, fault, hfault⟩
    exact ⟨fault, list, hlist, hfault⟩

/-! ## Each time over -/

/-- The work on all stages comes through exactly if no stage is at fault. -/
theorem exists_mapM_eq_ok_iff {β : Type} {f : Stage → Except Fault β} {stages : List Stage} :
    (∃ ys, stages.mapM f = .ok ys) ↔ ∀ s ∈ stages, ¬ Fails f s := by
  rw [← not_fails_iff, fails_mapM_iff]
  simp

theorem placing_eq_error_iff {stages : List Stage} {fault : Fault} :
    stages.mapM (place r) = .error fault ↔
      ∃ s, IsFirst (Unplaced r) stages s ∧ ReportsPlace r s fault :=
  mapM_eq_error_iff_reports (fun _ => fails_place_iff) fun _ _ => place_eq_error_iff_reports

theorem propagate_outcome (config : Config) (overrides : Properties) (stages : List Stage) :
    (propagate config.defaultKey (mergeAll config overrides stages)).2 =
      (stages.mapM (instancesOf config overrides)).map fun _ => () := by
  unfold propagate mergeAll
  rw [propagateFrom_outcome, List.mapM_map]
  rfl

theorem counting_eq_error_iff {stages : List Stage} {fault : Fault} :
    (propagate config.defaultKey (mergeAll config overrides stages)).2 = .error fault ↔
      ∃ s, IsFirst (Uncounted config overrides) stages s ∧
        ReportsCount config overrides s fault := by
  have hcounts : stages.mapM (instancesOf config overrides) = .error fault ↔
      ∃ s, IsFirst (Uncounted config overrides) stages s ∧
        ReportsCount config overrides s fault :=
    mapM_eq_error_iff_reports (fun _ => fails_instancesOf_iff) fun _ _ => instancesOf_eq_error_iff
  rw [propagate_outcome, ← hcounts]
  cases stages.mapM (instancesOf config overrides) <;> simp [Except.map]

theorem counting_eq_ok_iff {stages : List Stage} :
    (propagate config.defaultKey (mergeAll config overrides stages)).2 = .ok () ↔
      ∀ s ∈ stages, ¬ Uncounted config overrides s := by
  simp only [← fails_instancesOf_iff, ← exists_mapM_eq_ok_iff, propagate_outcome]
  cases stages.mapM (instancesOf config overrides) <;> simp [Except.map]

theorem settling_eq_error_iff {stages : List Stage} {fault : Fault} :
    stages.mapM (settleIncludes r config) = .error fault ↔
      ∃ s, IsFirst (Unsettled r config) stages s ∧ ReportsToken r config s fault :=
  mapM_eq_error_iff_reports (fun _ => fails_settleIncludes_iff)
    fun _ _ => settleIncludes_eq_error_iff_reports

theorem instructions_eq_error_iff_reports {stages : List Stage} {fault : Fault} :
    instructions r config overrides stages = .error fault ↔
      (∃ s, IsFirst (Unplaced r) stages s ∧ ReportsPlace r s fault) ∨
      (∀ s ∈ stages, ¬ Unplaced r s) ∧
        ((∃ s, IsFirst (Uncounted config overrides) stages s ∧
            ReportsCount config overrides s fault) ∨
          (∀ s ∈ stages, ¬ Uncounted config overrides s) ∧
            ∃ s, IsFirst (Unsettled r config) stages s ∧ ReportsToken r config s fault) := by
  rw [instructions_eq_error_iff, placing_eq_error_iff, exists_mapM_eq_ok_iff,
    counting_eq_error_iff, counting_eq_ok_iff, settling_eq_error_iff]
  simp only [fails_place_iff]

/-- Planning fails exactly if something is wrong with some stage. -/
theorem fails_instructions_iff {stages : List Stage} :
    Fails (instructions r config overrides) stages ↔
      ∃ s ∈ stages, Unplaced r s ∨ Uncounted config overrides s ∨ Unsettled r config s := by
  constructor
  · rintro ⟨fault, hfault⟩
    rcases instructions_eq_error_iff_reports.1 hfault with
      ⟨s, hs, _⟩ | ⟨_, ⟨s, hs, _⟩ | ⟨_, s, hs, _⟩⟩
    · exact ⟨s, hs.mem, Or.inl hs.holds⟩
    · exact ⟨s, hs.mem, Or.inr (Or.inl hs.holds)⟩
    · exact ⟨s, hs.mem, Or.inr (Or.inr hs.holds)⟩
  · rintro ⟨s, hs, hwrong⟩
    apply Classical.byContradiction
    intro hok
    obtain ⟨is, his⟩ := not_fails_iff.1 hok
    obtain ⟨places, settled, hplaces, hwalk, hsettled, _⟩ := instructions_eq_ok_iff.1 his
    rcases hwrong with hplace | hcount | htoken
    · exact exists_mapM_eq_ok_iff.1 ⟨places, hplaces⟩ s hs (fails_place_iff.2 hplace)
    · exact counting_eq_ok_iff.1 hwalk s hs hcount
    · exact exists_mapM_eq_ok_iff.1 ⟨settled, hsettled⟩ s hs (fails_settleIncludes_iff.2 htoken)

/-! ## The law -/

/-- Planning fails exactly if some stage has no binding, is not registered in its role, has a count
of no use, or lists a token that leads nowhere. A stage without a place is reported first, wherever
it is; then a count, then a token; and of several stages of one kind the first one deployed. -/
theorem earliest_phase_and_stage_decide_the_fault (p : Pipeline) (r : Registry)
    (config : Config) (overrides : Properties) (id : PlanId) :
    ((∃ fault, p.plan r config overrides id = .error fault) ↔
      ∃ s ∈ p.stages, Unbound s ∨ (∃ role, Unregistered r s role) ∨
        (∃ written, Miscounted config overrides s written) ∨
        ∃ list, s.parameter? config.includesParameter = some list ∧
          ∃ token ∈ Includes.tokens list, Unresolvable r token) ∧
    ∀ fault, p.plan r config overrides id = .error fault ↔
      (∃ s, IsFirst (Unplaced r) p.deployOrder s ∧ ReportsPlace r s fault) ∨
      (∀ s ∈ p.stages, ¬ Unplaced r s) ∧
        ((∃ s, IsFirst (Uncounted config overrides) p.deployOrder s ∧
            ReportsCount config overrides s fault) ∨
          (∀ s ∈ p.stages, ¬ Uncounted config overrides s) ∧
            ∃ s, IsFirst (Unsettled r config) p.deployOrder s ∧
              ReportsToken r config s fault) := by
  have hmem : ∀ s, s ∈ p.deployOrder ↔ s ∈ p.stages := fun s => List.mem_reverse
  constructor
  · simp only [Pipeline.plan_eq_error_iff]
    refine fails_instructions_iff.trans ?_
    simp only [hmem, Unplaced, Uncounted, Unsettled, or_assoc]
  · intro fault
    rw [Pipeline.plan_eq_error_iff, instructions_eq_error_iff_reports]
    simp only [hmem]

/-- The stage that is deployed last is not registered, and that is reported before the count of
the stage that is deployed first. -/
example :
    (Pipeline.build "line" "time | log"
        [.make "time" none ∅ none (some "x"), .make "log" none ∅ (some "x") none]).toOption.map
      (fun p => p.plan (.ofList [⟨"log", .sink, .plain "org.example" "log-sink" "1.0.0"⟩]) {}
        (.ofList [("stage.log.count", "0")]) ⟨0⟩) =
      some (.error (.notRegistered "time" .source)) := by
  decide +kernel

end Planning

end Rollout
