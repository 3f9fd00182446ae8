-- Asking a deployer that only remembers for the state of a pipeline. Asking changes nothing but
-- the log of requests, and the state of the whole is told by which states its stages have.
import Rollout.Coordinator
import Rollout.Deployer.Memory

namespace Rollout

namespace SortedMap

variable {κ ν : Type} [Ord κ] [Std.TransOrd κ] [Std.LawfulEqOrd κ]

/-! ## Maps that are made from a list of keys -/

theorem get?_insertAll_map [DecidableEq κ] (m : SortedMap κ ν) (f : κ → ν) (ks : List κ) (k : κ) :
    (m.insertAll (ks.map fun k => (k, f k))).get? k = if k ∈ ks then some (f k) else m.get? k := by
  induction ks generalizing m with
  | nil => simp
  | cons j ks ih =>
    rw [List.map_cons, insertAll_cons, ih, get?_insert]
    by_cases hk : k ∈ ks
    · simp [hk]
    · by_cases hj : k = j
      · subst hj
        simp
      · simp [hk, hj]

theorem mem_values_iff {m : SortedMap κ ν} {v : ν} : v ∈ m.values ↔ ∃ k, m.get? k = some v := by
  unfold values
  rw [List.mem_map]
  constructor
  · rintro ⟨⟨k, w⟩, hmem, rfl⟩
    exact ⟨k, get?_eq_some_iff.2 hmem⟩
  · rintro ⟨k, hk⟩
    exact ⟨(k, v), get?_eq_some_iff.1 hk, rfl⟩

end SortedMap

namespace MemoryDeployer

/-! ## The deployer -/

/-- The deployer after stages were asked for. -/
def askEach (d : MemoryDeployer) (ids : List StageId) : MemoryDeployer :=
  ids.foldl (fun d id => d.record .status id) d

/-- The states of stages, by their identities. -/
def statesOf (d : MemoryDeployer) (ids : List StageId) : SortedMap StageId StageState :=
  SortedMap.ofList (ids.map fun id => (id, d.state id))

theorem get?_statesOf (d : MemoryDeployer) (ids : List StageId) (id : StageId) :
    (d.statesOf ids).get? id = if id ∈ ids then some (d.state id) else none := by
  unfold statesOf SortedMap.ofList
  rw [SortedMap.get?_insertAll_map]
  rfl

theorem mem_values_statesOf {d : MemoryDeployer} {ids : List StageId} {state : StageState} :
    state ∈ (d.statesOf ids).values ↔ ∃ id ∈ ids, d.state id = state := by
  rw [SortedMap.mem_values_iff]
  constructor
  · rintro ⟨id, hid⟩
    rw [get?_statesOf] at hid
    split at hid
    · next hmem =>
      cases hid
      exact ⟨id, hmem, rfl⟩
    · cases hid
  · rintro ⟨id, hmem, rfl⟩
    exact ⟨id, by rw [get?_statesOf, if_pos hmem]⟩

end MemoryDeployer

/-! ## The question -/

namespace Status

theorem ask_eq (ids : List StageId) (known : SortedMap StageId StageState)
    (d : MemoryDeployer) :
    ask ids known d =
      (d.askEach ids, .ok (known.insertAll (ids.map fun id => (id, d.state id)))) := by
  induction ids generalizing known d with
  | nil => rfl
  | cons id ids ih =>
    have hstatus : Deployer.status d id = (d.record .status id, .ok (d.state id)) := rfl
    unfold ask
    rw [hstatus]
    simp only
    rw [ih]
    rfl

theorem byStage_eq (p : Pipeline) (d : MemoryDeployer) :
    byStage p d = (d.askEach p.ids, .ok (d.statesOf p.ids)) := ask_eq p.ids ∅ d

/-- The state of a pipeline by the states that a deployer remembers of its stages. -/
def told (p : Pipeline) (d : MemoryDeployer) : PipelineState :=
  PipelineState.ofStages (d.statesOf p.ids).values

theorem query_eq (p : Pipeline) (d : MemoryDeployer) :
    query p d =
      ⟨d.askEach p.ids, [.ofPipeline .stateComputed p.name (.computed (told p d))],
        .ok ⟨p.name, told p d, d.statesOf p.ids⟩⟩ := by
  unfold query
  rw [byStage_eq]
  rfl

end Status

/-- What asking for a pipeline does to the site and what it answers. -/
theorem Coordinator.status_eq (p : Pipeline) (s : Site MemoryDeployer) :
    status p s =
      ({ s with
          deployer := s.deployer.askEach p.ids
          events := s.events.receive s.sink
            [.ofPipeline .stateComputed p.name (.computed (Status.told p s.deployer))] },
        .ok ⟨p.name, Status.told p s.deployer, s.deployer.statesOf p.ids⟩) := by
  unfold status Site.work Site.settle
  rw [Status.query_eq]

/-! ## The state of the whole -/

namespace PipelineState

theorem ofStages_of_agree {states : List StageState} {state : StageState}
    (hne : states ≠ []) (h : ∀ s ∈ states, s = state) : ofStages states = state.agreed := by
  cases states with
  | nil => exact absurd rfl hne
  | cons first rest =>
    have hfirst : first = state := h first List.mem_cons_self
    subst hfirst
    exact if_pos fun s hs => h s (List.mem_cons_of_mem first hs)

theorem ofStages_of_disagree {states : List StageState} {a b : StageState}
    (ha : a ∈ states) (hb : b ∈ states) (hne : a ≠ b) :
    ofStages states = ofDisagreeing states := by
  cases states with
  | nil => cases ha
  | cons first rest =>
    apply if_neg
    intro hall
    have hsame : ∀ s ∈ first :: rest, s = first := List.forall_mem_cons.2 ⟨rfl, hall⟩
    exact hne ((hsame a ha).trans (hsame b hb).symm)

/-- A grave state of a stage is weighed against the others even if all stages share it. -/
theorem ofStages_of_grave {states : List StageState} {grave : StageState}
    (hmem : grave ∈ states) (h : grave = .error ∨ grave = .failed ∨ grave = .deploying) :
    ofStages states = ofDisagreeing states := by
  by_cases hall : ∀ s ∈ states, s = grave
  · have honly : ∀ s, s ∈ states ↔ s = grave := fun s => ⟨hall s, fun heq => heq ▸ hmem⟩
    rw [ofStages_of_agree (List.ne_nil_of_mem hmem) hall]
    unfold ofDisagreeing
    simp only [honly]
    rcases h with rfl | rfl | rfl <;> rfl
  · simp only [Classical.not_forall] at hall
    obtain ⟨other, hother, hne⟩ := hall
    exact ofStages_of_disagree hother hmem hne

end PipelineState

namespace Status

/-- A pipeline whose stages have one state has the state that goes with it. -/
theorem told_of_agree {p : Pipeline} {d : MemoryDeployer} {state : StageState}
    (h : ∀ id ∈ p.ids, d.state id = state) : told p d = state.agreed := by
  unfold told
  apply PipelineState.ofStages_of_agree
  · have hne : p.ids ≠ [] := by simpa [Pipeline.ids] using p.stages_ne_nil
    obtain ⟨id, hid⟩ := List.exists_mem_of_ne_nil _ hne
    exact List.ne_nil_of_mem (MemoryDeployer.mem_values_statesOf.2 ⟨id, hid, rfl⟩)
  · intro s hs
    obtain ⟨id, hid, rfl⟩ := MemoryDeployer.mem_values_statesOf.1 hs
    exact h id hid

/-- Of a pipeline whose stages disagree, the gravest state of a stage decides. -/
theorem told_of_disagree {p : Pipeline} {d : MemoryDeployer} {id id' : StageId}
    (hid : id ∈ p.ids) (hid' : id' ∈ p.ids) (hne : d.state id ≠ d.state id') :
    told p d = PipelineState.ofDisagreeing (d.statesOf p.ids).values :=
  PipelineState.ofStages_of_disagree (MemoryDeployer.mem_values_statesOf.2 ⟨id, hid, rfl⟩)
    (MemoryDeployer.mem_values_statesOf.2 ⟨id', hid', rfl⟩) hne

end Status

end Rollout
