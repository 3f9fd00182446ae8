-- The state of a pipeline is told by which states its stages have. A grave state, one of error,
-- failure or deploying, decides whether all stages share it or not; without one the stages have to
-- agree, or the pipeline is partly deployed.
import Rollout.Proofs.Asking

namespace Rollout

namespace PipelineState

variable {states others : List StageState} {state : PipelineState}

/-! ## What the states decide for -/

/-- The states of its stages decide for a state of the pipeline. They never do so for a partial
one, which is what is left. -/
def DecideFor (states : List StageState) : PipelineState → Prop
  | .error => states = [] ∨ .error ∈ states
  | .failed => .failed ∈ states ∧ .error ∉ states
  | .deploying => .deploying ∈ states ∧ .error ∉ states ∧ .failed ∉ states
  | .deployed => states ≠ [] ∧ ∀ s ∈ states, s = .deployed
  | .undeployed =>
    states ≠ [] ∧ ((∀ s ∈ states, s = .unknown) ∨ ∀ s ∈ states, s = .undeployed)
  | .unknown | .mixed => False

theorem decideFor_congr (h : ∀ s, s ∈ others ↔ s ∈ states) :
    DecideFor others state ↔ DecideFor states state := by
  cases state <;> simp only [DecideFor, ne_eq, List.eq_nil_iff_forall_not_mem, h]

/-! ## The state of the pipeline -/

/-- Where the states decide, the pipeline has the state they decide for. -/
theorem ofStages_of_decideFor (h : DecideFor states state) : ofStages states = state := by
  cases state with
  | error =>
    rcases h with rfl | herror
    · rfl
    · rw [ofStages_of_grave herror (Or.inl rfl), ofDisagreeing, if_pos herror]
  | failed =>
    obtain ⟨hfailed, herror⟩ := h
    rw [ofStages_of_grave hfailed (Or.inr (Or.inl rfl)), ofDisagreeing, if_neg herror,
      if_pos hfailed]
  | deploying =>
    obtain ⟨hdeploying, herror, hfailed⟩ := h
    rw [ofStages_of_grave hdeploying (Or.inr (Or.inr rfl)), ofDisagreeing, if_neg herror,
      if_neg hfailed, if_pos hdeploying]
  | deployed => exact ofStages_of_agree h.1 h.2
  | undeployed =>
    obtain ⟨hne, hall | hall⟩ := h
    · exact ofStages_of_agree hne hall
    · exact ofStages_of_agree hne hall
  | unknown => cases h
  | mixed => cases h

/-- Where the states decide for nothing, the pipeline is partly deployed. -/
theorem decided_or_mixed (states : List StageState) :
    (∃ state, DecideFor states state) ∨ ofStages states = .mixed := by
  by_cases herror : .error ∈ states
  · exact Or.inl ⟨.error, Or.inr herror⟩
  by_cases hfailed : .failed ∈ states
  · exact Or.inl ⟨.failed, hfailed, herror⟩
  by_cases hdeploying : .deploying ∈ states
  · exact Or.inl ⟨.deploying, hdeploying, herror, hfailed⟩
  cases states with
  | nil => exact Or.inl ⟨.error, Or.inl rfl⟩
  | cons first rest =>
    have hne : first :: rest ≠ [] := List.cons_ne_nil first rest
    by_cases hall : ∀ s ∈ first :: rest, s = first
    · cases first with
      | unknown => exact Or.inl ⟨.undeployed, hne, Or.inl hall⟩
      | undeployed => exact Or.inl ⟨.undeployed, hne, Or.inr hall⟩
      | deployed => exact Or.inl ⟨.deployed, hne, hall⟩
      | error => exact absurd List.mem_cons_self herror
      | failed => exact absurd List.mem_cons_self hfailed
      | deploying => exact absurd List.mem_cons_self hdeploying
    · simp only [Classical.not_forall] at hall
      obtain ⟨other, hother, hdiffers⟩ := hall
      right
      rw [ofStages_of_disagree hother List.mem_cons_self hdiffers, ofDisagreeing, if_neg herror,
        if_neg hfailed, if_neg hdeploying]

theorem ofStages_eq_iff (h : state ≠ .mixed) :
    ofStages states = state ↔ DecideFor states state := by
  refine ⟨fun hstate => ?_, ofStages_of_decideFor⟩
  rcases decided_or_mixed states with ⟨decided, hdecided⟩ | hmixed
  · rw [ofStages_of_decideFor hdecided] at hstate
    exact hstate ▸ hdecided
  · exact absurd (hstate.symm.trans hmixed) h

theorem ofStages_eq_mixed_iff :
    ofStages states = .mixed ↔ ∀ state, ¬ DecideFor states state := by
  constructor
  · intro hmixed state hstate
    obtain rfl : state = .mixed := (ofStages_of_decideFor hstate).symm.trans hmixed
    exact hstate
  · intro hnone
    rcases decided_or_mixed states with ⟨state, hstate⟩ | hmixed
    · exact absurd hstate (hnone state)
    · exact hmixed

theorem ofStages_congr (h : ∀ s, s ∈ others ↔ s ∈ states) :
    ofStages others = ofStages states := by
  rcases decided_or_mixed states with ⟨state, hstate⟩ | hmixed
  · rw [ofStages_of_decideFor hstate, ofStages_of_decideFor ((decideFor_congr h).2 hstate)]
  · rw [hmixed, ofStages_eq_mixed_iff]
    intro state hstate
    exact ofStages_eq_mixed_iff.1 hmixed state ((decideFor_congr h).1 hstate)

/-! ## The law -/

/-- The state of a pipeline depends on nothing but which states its stages have, and it is never
unknown. It is in error exactly without stages or with a stage in error, failed with a failed stage
but none in error, deploying with one that is deploying but none failed or in error, deployed if all
stages are, and undeployed if all are or if the deployer knows none of them. In every other case it
is partly deployed. -/
theorem occurring_states_decide (states : List StageState) :
    (∀ others, (∀ s, s ∈ others ↔ s ∈ states) → ofStages others = ofStages states) ∧
    (ofStages states = .error ↔ states = [] ∨ .error ∈ states) ∧
    (ofStages states = .failed ↔ .failed ∈ states ∧ .error ∉ states) ∧
    (ofStages states = .deploying ↔
      .deploying ∈ states ∧ .error ∉ states ∧ .failed ∉ states) ∧
    (ofStages states = .deployed ↔ states ≠ [] ∧ ∀ s ∈ states, s = .deployed) ∧
    (ofStages states = .undeployed ↔
      states ≠ [] ∧ ((∀ s ∈ states, s = .unknown) ∨ ∀ s ∈ states, s = .undeployed)) ∧
    (ofStages states = .mixed ↔ ∀ state, ¬ DecideFor states state) ∧
    ofStages states ≠ .unknown := by
  have hiff : ∀ state, state ≠ .mixed → (ofStages states = state ↔ DecideFor states state) :=
    fun _ => ofStages_eq_iff
  exact ⟨fun _ => ofStages_congr, hiff .error (by decide), hiff .failed (by decide),
    hiff .deploying (by decide), hiff .deployed (by decide), hiff .undeployed (by decide),
    ofStages_eq_mixed_iff, (hiff .unknown (by decide)).1⟩

end PipelineState

end Rollout
