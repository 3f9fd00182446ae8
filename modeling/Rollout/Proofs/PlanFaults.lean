-- Why planning fails. Each phase has faults of its own, and all of them arise before anything
-- reaches a deployer.
import Rollout.Properties.Listing
import Rollout.Proofs.PlanShape

namespace Rollout

/-! ## The faults of one stage -/

theorem Stage.role_eq_error_iff {s : Stage} {fault : Fault} :
    s.role = .error fault ↔
      Role.ofFlow? s.hasInput s.hasOutput = none ∧ fault = .ambiguousRole s.label := by
  unfold role
  split
  · next h => simp [h]
  · next h => simp [h, eq_comm]

theorem Registry.resolve_eq_error_iff {r : Registry} {name : String} {role : Role}
    {fault : Fault} :
    r.resolve name role = .error fault ↔
      r.coordinates? name role.kind = none ∧ fault = .notRegistered name role.kind := by
  unfold resolve
  split
  · next h => simp [h]
  · next h => simp [h, eq_comm]

theorem Registry.resolveLibrary_eq_error_iff {r : Registry} {token : String} {fault : Fault} :
    r.resolveLibrary token = .error fault ↔
      Coordinates.parse? token = none ∧ r.coordinates? token .library = none ∧
        fault = .unresolvedLibrary token := by
  unfold resolveLibrary
  split
  · next h => simp [h]
  · next h =>
    split
    · next h' => simp [h, h']
    · next h' => simp [h, h', eq_comm]

theorem Includes.resolve_eq_error_iff {r : Registry} {list : String} {fault : Fault} :
    resolve r list = .error fault ↔ (tokens list).mapM r.resolveLibrary = .error fault := by
  unfold resolve
  cases (tokens list).mapM r.resolveLibrary <;> simp [bind, Except.bind, pure, Except.pure]

namespace Planning

/-- A stage finds no place if it has no role, or if the registry knows nothing of its name and
the kind of its role. -/
theorem place_eq_error_iff {r : Registry} {s : Stage} {fault : Fault} :
    place r s = .error fault ↔
      s.role = .error fault ∨
        ∃ role, s.role = .ok role ∧ r.resolve s.name role = .error fault := by
  unfold place
  cases hrole : s.role with
  | error fault' => simp [bind, Except.bind]
  | ok role =>
    cases hplace : r.resolve s.name role <;>
      simp [bind, Except.bind, pure, Except.pure, hplace]

theorem settleIncludes_eq_error_iff {r : Registry} {config : Config} {s : Stage}
    {fault : Fault} :
    settleIncludes r config s = .error fault ↔
      ∃ list, s.parameter? config.includesParameter = some list ∧
        Includes.resolve r list = .error fault := by
  unfold settleIncludes
  cases s.parameter? config.includesParameter with
  | none => simp
  | some list => cases hlist : Includes.resolve r list <;> simp [Except.map, hlist]

/-! ## The faults of the phases -/

/-- Planning fails in its first phase, or after success there in its second, or after success in
both in its third. -/
theorem instructions_eq_error_iff {r : Registry} {config : Config} {overrides : Properties}
    {stages : List Stage} {fault : Fault} :
    instructions r config overrides stages = .error fault ↔
      stages.mapM (place r) = .error fault ∨
      (∃ places, stages.mapM (place r) = .ok places) ∧
        ((Partition.propagate config.defaultKey (mergeAll config overrides stages)).2 =
            .error fault ∨
          (Partition.propagate config.defaultKey (mergeAll config overrides stages)).2 = .ok () ∧
            stages.mapM (settleIncludes r config) = .error fault) := by
  unfold instructions
  cases hplaces : stages.mapM (place r) with
  | error fault' => simp [bind, Except.bind]
  | ok places =>
    cases hwalk : (Partition.propagate config.defaultKey
        (mergeAll config overrides stages)).2 with
    | error fault' => simp [bind, Except.bind, hwalk]
    | ok _ =>
      cases hsettled : stages.mapM (settleIncludes r config) <;>
        simp [bind, Except.bind, pure, Except.pure, hwalk]

/-- What fails on a list with a fault of planning, if it does so on every entry. -/
theorem isPlanning_of_mapM {α β : Type} {f : α → Except Fault β} {xs : List α} {fault : Fault}
    (hf : ∀ x, f x = .error fault → fault.isPlanning) (h : xs.mapM f = .error fault) :
    fault.isPlanning := by
  obtain ⟨_, x, _, _, _, hx⟩ := Traversal.mapM_eq_error_iff.1 h
  exact hf x hx

theorem isPlanning_of_place {r : Registry} {s : Stage} {fault : Fault}
    (h : place r s = .error fault) : fault.isPlanning := by
  rcases place_eq_error_iff.1 h with hrole | ⟨role, _, hplace⟩
  · rw [(Stage.role_eq_error_iff.1 hrole).2]
    rfl
  · rw [(Registry.resolve_eq_error_iff.1 hplace).2]
    rfl

theorem isPlanning_of_propagate {defaultKey : String} {flow : List (Stage × Properties)}
    {fault : Fault} (h : (Partition.propagate defaultKey flow).2 = .error fault) :
    fault.isPlanning := by
  rcases Partition.propagate_eq defaultKey flow with ⟨_, heq⟩ | ⟨f, fault', hstop, heq⟩
  · rw [heq] at h
    cases h
  · rw [heq] at h
    cases h
    obtain ⟨⟨e, _, hfault⟩, _⟩ := hstop
    obtain ⟨_, _, _, rfl⟩ := Partition.instances_eq_error_iff.1 hfault
    rfl

theorem isPlanning_of_settleIncludes {r : Registry} {config : Config} {s : Stage}
    {fault : Fault} (h : settleIncludes r config s = .error fault) : fault.isPlanning := by
  obtain ⟨list, _, hlist⟩ := settleIncludes_eq_error_iff.1 h
  refine isPlanning_of_mapM (fun token htoken => ?_) (Includes.resolve_eq_error_iff.1 hlist)
  rw [(Registry.resolveLibrary_eq_error_iff.1 htoken).2.2]
  rfl

end Planning

/-- Whatever planning fails with is a fault of planning. -/
theorem Pipeline.isPlanning_of_plan {p : Pipeline} {r : Registry} {config : Config}
    {overrides : Properties} {id : PlanId} {fault : Fault}
    (h : p.plan r config overrides id = .error fault) : fault.isPlanning := by
  rcases Planning.instructions_eq_error_iff.1 (plan_eq_error_iff.1 h) with
    hplace | ⟨_, hwalk | ⟨_, hsettle⟩⟩
  · exact Planning.isPlanning_of_mapM (fun _ => Planning.isPlanning_of_place) hplace
  · exact Planning.isPlanning_of_propagate hwalk
  · exact Planning.isPlanning_of_mapM (fun _ => Planning.isPlanning_of_settleIncludes) hsettle

namespace Properties

/-! ## The faults of a list of properties -/

theorem isPlanning_of_entry {written : List Char} {fault : Fault}
    (h : entry written = .error fault) : fault.isPlanning := by
  unfold entry at h
  simp only at h
  split at h
  · cases h
    rfl
  · cases h

/-- Whatever reading a list of properties fails with is a fault of planning. -/
theorem isPlanning_of_ofListing {text : String} {fault : Fault}
    (h : ofListing text = .error fault) : fault.isPlanning := by
  unfold ofListing at h
  split at h
  · cases h
  · split at h
    · cases h
      rfl
    · next entries _ =>
      cases hentries : entries.mapM fun group => entry (Text.join ',' group) with
      | ok pairs =>
        rw [hentries] at h
        cases h
      | error fault' =>
        rw [hentries] at h
        cases h
        exact Planning.isPlanning_of_mapM (fun _ => isPlanning_of_entry) hentries

end Properties

end Rollout
