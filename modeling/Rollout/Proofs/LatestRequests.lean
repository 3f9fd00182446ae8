-- A deployer holds the latest of the requests it received, as many as its limit allows. Its history
-- says which requests these are: those since the calls were forgotten last, whether what they asked
-- for was done or refused.
import Rollout.Proofs.Remembering

namespace Rollout

variable {history : List Dealing} {a : Dealing}

/-! ## Requests of a history -/

theorem received_concat_of_forgetting (h : a.isForgetting = true) :
    received (history ++ [a]) = [] := by
  unfold received
  rw [List.rtakeWhile_concat_neg _ _ _ (by simp [h])]
  rfl

theorem received_concat (h : a.isForgetting = false) :
    received (history ++ [a]) = received history ++ a.request?.toList := by
  unfold received
  rw [List.rtakeWhile_concat_pos _ _ _ (by simp [h]), List.filterMap_append]
  cases hrequest : a.request? <;> simp [hrequest]

/-! ## The log -/

namespace CallLog

theorem deployed_eq (log : CallLog) :
    log.deployed = (log.calls.filter (·.kind = .deploy)).map Call.id := by
  unfold deployed
  induction log.calls with
  | nil => rfl
  | cons call calls ih =>
    rw [List.filterMap_cons, List.filter_cons, ih]
    by_cases h : call.kind = .deploy <;> simp [h]

end CallLog

namespace MemoryDeployer

/-- What a dealing does to the log. -/
theorem log_deal (d : MemoryDeployer) (a : Dealing) :
    (d.deal a).log =
      if a.isForgetting then d.log.clear else a.request?.toList.foldl CallLog.record d.log := by
  cases a with
  | deploy i => exact d.log_deploy i
  | _ => rfl

/-- The log of a new deployer is what the requests since the calls were forgotten make of an empty
one. -/
theorem log_dealEach_new (deployState : StageState) (limit : Nat) (history : List Dealing) :
    ((new deployState limit).dealEach history).log =
      (received history).foldl CallLog.record { limit := limit } := by
  induction history using List.reverseRecOn with
  | nil => rfl
  | append_singleton history a ih =>
    rw [dealEach_concat, log_deal, ih]
    cases hforgets : a.isForgetting with
    | true =>
      have hlimit : ((received history).foldl CallLog.record { limit := limit }).limit = limit :=
        Traversal.foldl_unchanged CallLog.limit_record _ _
      rw [received_concat_of_forgetting hforgets, if_pos rfl, CallLog.clear, hlimit]
      rfl
    | false =>
      rw [received_concat hforgets, List.foldl_append]
      rfl

theorem calls_dealEach_new (deployState : StageState) (limit : Nat) (history : List Dealing) :
    ((new deployState limit).dealEach history).calls =
      (received history).drop ((received history).length - limit) := by
  unfold calls
  rw [log_dealEach_new, CallLog.calls_foldl_record (Nat.zero_le _)]
  rfl

/-! ## The law -/

/-- A new deployer holds a final stretch of the requests it received since the calls were forgotten
last, and that is as long as its limit allows. The stages it was asked to deploy are told by the
requests it holds, refused or not; and of the requests to take a stage down it counts no more than
it received, and all of them as long as the limit is not exceeded. -/
theorem latest_requests_are_held (deployState : StageState) (limit : Nat)
    (history : List Dealing) :
    let d := (new deployState limit).dealEach history
    d.calls <:+ received history ∧ d.calls.length = min (received history).length limit ∧
    d.log.deployed = (d.calls.filter (·.kind = .deploy)).map Call.id ∧
    d.log.undeploys ≤ (received history).countP (·.kind = .undeploy) ∧
    ((received history).length ≤ limit →
      d.log.undeploys = (received history).countP (·.kind = .undeploy)) := by
  intro d
  have hcalls : d.calls = (received history).drop ((received history).length - limit) :=
    calls_dealEach_new deployState limit history
  have hsuffix : d.calls <:+ received history := by
    rw [hcalls]
    exact List.drop_suffix _ _
  refine ⟨hsuffix, ?_, d.log.deployed_eq, hsuffix.sublist.countP_le, fun hlimit => ?_⟩
  · rw [hcalls, List.length_drop]
    omega
  · have hall : d.calls = received history := by
      rw [hcalls, Nat.sub_eq_zero_of_le hlimit, List.drop_zero]
    exact congrArg (List.countP (·.kind = .undeploy)) hall

end MemoryDeployer

end Rollout
