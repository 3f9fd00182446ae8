-- What a deployer is: something that starts stages, takes them down and tells their state. Each
-- request may fail, and each may change the deployer even then. A log of the requests holds exactly
-- as many as were received, or the latest ones as far as its limit allows.
import Rollout.Plan
import Rollout.State

namespace Rollout

inductive CallKind where
  | deploy
  | undeploy
  | status
  deriving DecidableEq, Inhabited

structure Call where
  kind : CallKind
  id : StageId
  deriving DecidableEq, Inhabited

/-- A deployer, by what it answers and what becomes of it. -/
class Deployer (δ : Type) where
  deploy : δ → Instruction → δ × Except DeployerFault Unit
  undeploy : δ → StageId → δ × Except DeployerFault Unit
  status : δ → StageId → δ × Except DeployerFault StageState

structure CallLog where
  /-- How many requests are held at most. -/
  limit : Nat := 1024
  calls : List Call := []
  deriving DecidableEq, Inhabited

namespace CallLog

/-- Notes a request; the oldest ones make room for it. -/
def record (log : CallLog) (call : Call) : CallLog :=
  if log.limit = 0 then log
  else { log with calls := log.calls.drop (log.calls.length + 1 - log.limit) ++ [call] }

def clear (log : CallLog) : CallLog := { log with calls := [] }

/-- The stages asked to be deployed, oldest request first. -/
def deployed (log : CallLog) : List StageId :=
  log.calls.filterMap fun c => if c.kind = .deploy then some c.id else none

/-- How many requests asked to take a stage down. -/
def undeploys (log : CallLog) : Nat :=
  log.calls.countP (·.kind = .undeploy)

/-! ## Laws -/

@[simp] theorem limit_record (log : CallLog) (call : Call) :
    (log.record call).limit = log.limit := by
  unfold record
  split <;> rfl

theorem calls_record {log : CallLog} (h : log.calls.length ≤ log.limit) (call : Call) :
    (log.record call).calls =
      (log.calls ++ [call]).drop ((log.calls ++ [call]).length - log.limit) := by
  rw [List.length_append, List.length_singleton]
  unfold record
  split
  · next h0 =>
    have hnil : log.calls = [] := List.eq_nil_of_length_eq_zero (by omega)
    simp [h0, hnil]
  · next h0 => rw [List.drop_append_of_le_length (by omega)]

/-- Of the requests it receives, a log within its limit holds the latest ones up to that limit. -/
theorem calls_foldl_record {log : CallLog} (h : log.calls.length ≤ log.limit)
    (calls : List Call) :
    (calls.foldl record log).calls =
      (log.calls ++ calls).drop ((log.calls ++ calls).length - log.limit) := by
  induction calls generalizing log with
  | nil => simp [Nat.sub_eq_zero_of_le h]
  | cons call calls ih =>
    have hcalls := calls_record h call
    have hlen : (log.record call).calls.length ≤ (log.record call).limit := by
      rw [hcalls, List.length_drop, limit_record]
      omega
    rw [List.foldl_cons, ih hlen, hcalls, limit_record,
      ← List.drop_append_of_le_length (Nat.sub_le _ _), List.append_assoc, List.drop_drop]
    simp only [List.length_drop, List.length_append, List.length_cons, List.length_nil,
      List.singleton_append]
    congr 1
    omega

end CallLog

end Rollout
