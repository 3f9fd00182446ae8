-- Which overrides apply to a stage. Those of the scope of its label come before those of the
-- wildcard, key by key, and an override that is in neither scope makes no difference, however the
-- openings of the two scopes overlap.
import Rollout.Properties.Scope

namespace Rollout

/-! ## Overrides of one scope -/

/-- Two maps of overrides say the same in a scope: of every key that begins as the scope does. -/
def Scope.Agree (lead label : String) (overrides overrides' : Properties) : Prop :=
  ∀ rest, overrides.get? (opening lead label ++ rest) = overrides'.get? (opening lead label ++ rest)

theorem Scope.agree_of_pick_eq {lead label : String} {overrides overrides' : Properties}
    (h : pick lead label overrides = pick lead label overrides') :
    Agree lead label overrides overrides' := by
  intro rest
  apply Option.ext
  intro v
  rw [← mem_pick, ← mem_pick, h]

/-- What applies to a stage is told by the scopes of its label and of the wildcard. -/
theorem Properties.merge_congr {lead label : String} {overrides overrides' : Properties}
    (hwildcard : Scope.Agree lead Scope.wildcard overrides overrides')
    (hlabel : Scope.Agree lead label overrides overrides') :
    overrides.merge lead label = overrides'.merge lead label := by
  apply SortedMap.ext_get?
  intro k
  rw [get?_merge, get?_merge, hlabel k, hwildcard k]

/-! ## The law -/

/-- Under a key there applies what the label says of that key, or else what the wildcard says of it,
or else nothing. Overrides that say the same under the keys of the label and of the wildcard come
to the same, whatever else they say. -/
theorem Properties.label_is_heard_before_the_wildcard (lead label : String)
    (overrides : Properties) :
    (∀ k, (overrides.merge lead label).get? k =
      (overrides.get? (lead ++ "." ++ label ++ "." ++ k)).or
        (overrides.get? (lead ++ "." ++ "*" ++ "." ++ k))) ∧
    ∀ overrides' : Properties,
      (∀ key, (∃ k, key = lead ++ "." ++ label ++ "." ++ k ∨ key = lead ++ "." ++ "*" ++ "." ++ k) →
        overrides.get? key = overrides'.get? key) →
      overrides.merge lead label = overrides'.merge lead label := by
  refine ⟨get?_merge lead label overrides, fun overrides' h => ?_⟩
  apply merge_congr
  · intro k
    exact h _ ⟨k, Or.inr rfl⟩
  · intro k
    exact h _ ⟨k, Or.inl rfl⟩

-- An override can be in both scopes, under a key of its own in each.
example :
    Properties.merge "stage" "*.b"
        (.ofList [("stage.*.b.k", "1"), ("stage.*.k", "0"), ("stage.b.k", "2")]) =
      .ofList [("b.k", "1"), ("k", "1")] := by
  decide +kernel

end Rollout
