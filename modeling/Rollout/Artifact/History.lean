-- The history of a registry: what was registered in it and what was forgotten, oldest first. What a
-- history leaves registered is told without a registry: a registration stands if nothing was done
-- about its name and kind after it was made.
import Rollout.Artifact.Registry
import Rollout.Text.Bytes

namespace Rollout

/-- What can be done with a registry. -/
inductive RegistryAct where
  | register (entry : Registration)
  | unregister (name : String) (kind : ArtifactKind)
  | clear
  deriving DecidableEq

namespace RegistryAct

/-- Tells whether an act settles anew what a name and kind stand for. -/
def concerns (name : String) (kind : ArtifactKind) : RegistryAct → Bool
  | .register entry => entry.name = name ∧ entry.kind = kind
  | .unregister name' kind' => name' = name ∧ kind' = kind
  | .clear => true

end RegistryAct

namespace Registry

/-- Does an act. One that is about a name and kind gives what these stood for. -/
def act (r : Registry) : RegistryAct → Option Registration × Registry
  | .register entry => r.replace entry
  | .unregister name kind => r.remove name kind
  | .clear => (none, ∅)

/-- What a history makes of a registry that is empty at first. -/
def after (history : List RegistryAct) : Registry :=
  history.foldl (fun r a => (r.act a).2) ∅

end Registry

/-- At the end of a history a registration stands: it was made, and no later act was about its name
and kind. -/
def Stands (history : List RegistryAct) (entry : Registration) : Prop :=
  ∃ before later, history = before ++ .register entry :: later ∧
    ∀ a ∈ later, a.concerns entry.name entry.kind = false

/-- A registration comes before another one in a list: by the bytes of its name, and if the names
are the same, by its kind. -/
def Registration.Precedes (a b : Registration) : Prop :=
  Text.bytes a.name < Text.bytes b.name ∨ a.name = b.name ∧ a.kind.rank < b.kind.rank

end Rollout
