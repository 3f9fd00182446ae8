-- Lists of libraries. Each token of a list stands for a place, by coordinates of its own or by a
-- name that the registry knows, and the settled list has these places in their order. Spaces and
-- tabs count nowhere, and commas count only as the ends of tokens.
import Rollout.Proofs.FirstFault
import Rollout.Proofs.SettledLibraries

namespace Rollout

open Rollout.Text Rollout.Traversal

/-! ## What tokens stand for -/

/-- A token stands for a place: for its own coordinates, whatever is registered, or else for the
library that is registered under it. -/
inductive Registry.StandsFor (r : Registry) (token : String) : Coordinates → Prop
  | coordinates {c : Coordinates} (hparse : Coordinates.parse token = .ok c) :
    r.StandsFor token c
  | library {c : Coordinates} (hparse : ∀ c', Coordinates.parse token ≠ .ok c')
    (hfound : r.find? token .library = some ⟨token, .library, c⟩) : r.StandsFor token c

namespace Registry

variable {r : Registry} {token : String}

end Registry

namespace Includes

variable {r : Registry}

section Commas

variable {commas : List Char} (h : ∀ c ∈ commas, c = ',')
include h

end Commas

/-! ## What does not count -/

-- A library that has the name of coordinates is not asked for, and spaces may break a token.
example :
    resolve
        (.ofList [⟨"jdbc-driver", .library, .plain "org.example" "jdbc" "4.2"⟩,
          ⟨"com.acme:util:2.0", .library, .plain "org.example" "other" "1"⟩])
        " ,jdbc- driver ,,\tcom.acme:util: 2.0," =
      .ok "org.example:jdbc:jar:4.2,com.acme:util:jar:2.0" := by
  decide +kernel

end Includes

end Rollout
