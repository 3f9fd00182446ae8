-- Lists of libraries that are settled stay as they are. Settling gives every library by its
-- coordinates, and where these can stand in a list, the settled list names them again, each by a
-- text that stands for itself.
import Rollout.Artifact.Reference
import Rollout.Proofs.CoordinatesText
import Rollout.Proofs.Traversal

namespace Rollout

open Rollout.Text

/-! ## Coordinates in a list -/

/-- Coordinates can stand in a list: their text is read back, and has no comma and no tab. -/
structure Coordinates.Listable (c : Coordinates) : Prop where
  wellFormed : c.WellFormed
  no_comma : ∀ field ∈ c.fields, ',' ∉ field.toList
  no_tab : ∀ field ∈ c.fields, '\t' ∉ field.toList

/-- All libraries of a registry are at coordinates that can stand in a list. -/
def Registry.ListsLibraries (r : Registry) : Prop :=
  ∀ name c, r.coordinates? name .library = some c → c.Listable

namespace Coordinates.Listable

variable {c : Coordinates}

theorem comma_notMem_text (h : c.Listable) : ',' ∉ c.text.toList :=
  notMem_text (by decide) h.no_comma

theorem tab_notMem_text (h : c.Listable) : '\t' ∉ c.text.toList :=
  notMem_text (by decide) h.no_tab

/-- The text has nothing that a list would drop. -/
theorem strip_text (h : c.Listable) : Includes.strip c.text.toList = c.text.toList := by
  unfold Includes.strip
  rw [List.filter_eq_self]
  intro ch hch
  have hspace : ch ≠ ' ' := by
    rintro rfl
    exact space_notMem_text h.wellFormed hch
  have htab : ch ≠ '\t' := by
    rintro rfl
    exact h.tab_notMem_text hch
  simp [hspace, htab]

end Coordinates.Listable

/-! ## Tokens of a list -/

namespace Includes

theorem of_mem_tokens {list token : String} (h : token ∈ tokens list) :
    ',' ∉ token.toList ∧ '\t' ∉ token.toList := by
  unfold tokens at h
  obtain ⟨stripped, hstripped, rfl⟩ := List.mem_map.1 h
  obtain ⟨piece, hpiece, rfl⟩ := List.mem_map.1 (List.mem_filter.1 hstripped).1
  rw [String.toList_ofList]
  constructor
  · intro hcomma
    exact sep_notMem_of_mem_pieces hpiece (List.mem_filter.1 hcomma).1
  · intro htab
    simpa using (List.mem_filter.1 htab).2

/-- A list of places names the text of each place. -/
theorem tokens_text {places : List Coordinates} (h : ∀ c ∈ places, c.Listable) :
    tokens (text places) = places.map Coordinates.text := by
  have hcut : ((pieces ',' (text places).toList).map strip).filter (· ≠ []) =
      places.map (·.text.toList) := by
    cases places with
    | nil => rfl
    | cons c places =>
      have hstrip : ∀ piece ∈ (c :: places).map (·.text.toList),
          strip piece = piece ∧ piece ≠ [] := by
        intro piece hpiece
        obtain ⟨c', hc', rfl⟩ := List.mem_map.1 hpiece
        refine ⟨(h c' hc').strip_text, ?_⟩
        simpa using c'.text_ne
      rw [text, String.toList_ofList, pieces_join]
      · rw [List.map_congr_left fun piece hpiece => (hstrip piece hpiece).1, List.map_id',
          List.filter_eq_self]
        intro piece hpiece
        simpa using (hstrip piece hpiece).2
      · simp
      · intro piece hpiece
        obtain ⟨c', hc', rfl⟩ := List.mem_map.1 hpiece
        exact (h c' hc').comma_notMem_text
  unfold tokens
  rw [hcut, List.map_map]
  exact List.map_congr_left fun c _ => String.ofList_toList

end Includes

/-! ## Settled lists -/

namespace Registry

variable {r : Registry}

/-- Whatever the registry knows, the text of coordinates stands for them. -/
theorem resolveLibrary_text (r : Registry) {c : Coordinates} (h : c.WellFormed) :
    r.resolveLibrary c.text = .ok c := by
  unfold resolveLibrary
  rw [Coordinates.parse?_text h]

theorem resolveLibrary_eq_ok_iff {token : String} {c : Coordinates} :
    r.resolveLibrary token = .ok c ↔
      Coordinates.parse? token = some c ∨
        Coordinates.parse? token = none ∧ r.coordinates? token .library = some c := by
  unfold resolveLibrary
  cases Coordinates.parse? token with
  | some c' => simp
  | none => cases r.coordinates? token .library <;> simp

/-- What a token of a list leads to can stand in a list. -/
theorem listable_of_resolveLibrary (hlibraries : r.ListsLibraries) {list token : String}
    {c : Coordinates} (htoken : token ∈ Includes.tokens list)
    (h : r.resolveLibrary token = .ok c) : c.Listable := by
  rcases resolveLibrary_eq_ok_iff.1 h with hparse | ⟨_, hfound⟩
  · obtain ⟨hcomma, htab⟩ := Includes.of_mem_tokens htoken
    exact ⟨Coordinates.wellFormed_of_parse? hparse,
      Coordinates.notMem_of_parse? hparse (by decide) hcomma,
      Coordinates.notMem_of_parse? hparse (by decide) htab⟩
  · exact hlibraries token c hfound

end Registry

namespace Includes

variable {r : Registry}

theorem resolve_eq_ok_iff {list settled : String} :
    resolve r list = .ok settled ↔
      ∃ places, (tokens list).mapM r.resolveLibrary = .ok places ∧ settled = text places := by
  unfold resolve
  cases (tokens list).mapM r.resolveLibrary <;> simp [bind, Except.bind, pure, Except.pure, eq_comm]

/-- A list of places that can stand in it is settled. -/
theorem resolve_text (r : Registry) {places : List Coordinates}
    (h : ∀ c ∈ places, c.Listable) : resolve r (text places) = .ok (text places) := by
  refine resolve_eq_ok_iff.2 ⟨places, ?_, rfl⟩
  rw [tokens_text h, Traversal.mapM_eq_ok_iff, List.map_map]
  exact List.map_congr_left fun c hc => r.resolveLibrary_text (h c hc).wellFormed

/-- A settled list stays as it is. -/
theorem resolve_of_resolve (hlibraries : r.ListsLibraries) {list settled : String}
    (h : resolve r list = .ok settled) : resolve r settled = .ok settled := by
  obtain ⟨places, hplaces, rfl⟩ := resolve_eq_ok_iff.1 h
  apply resolve_text
  intro c hc
  have hmem : Except.ok c ∈ (tokens list).map r.resolveLibrary := by
    rw [Traversal.mapM_eq_ok_iff.1 hplaces]
    exact List.mem_map_of_mem hc
  obtain ⟨token, htoken, hfound⟩ := List.mem_map.1 hmem
  exact Registry.listable_of_resolveLibrary hlibraries htoken hfound

end Includes

end Rollout
