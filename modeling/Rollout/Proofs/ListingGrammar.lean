-- The grammar of property lists. The pieces between the commas fall into groups in one way, and
-- each group is an entry: a key before its first equals sign, and a value after it. Reading a text
-- gives what the grammar says of it, for every text, whether that is a map or a fault.
import Rollout.Properties.Listing
import Rollout.Proofs.Traversal

namespace Rollout.Properties

open Rollout.Text Rollout.Traversal

/-! ## Groups of pieces -/

/-- A group of pieces: one with an equals sign, and then those without one that go on with it. -/
def IsGroup : List (List Char) → Prop
  | [] => False
  | head :: tail => '=' ∈ head ∧ ∀ piece ∈ tail, '=' ∉ piece

/-- Pieces are groups, one after the other. -/
structure FallsInto (ps : List (List Char)) (gs : List (List (List Char))) : Prop where
  isGroup : ∀ g ∈ gs, IsGroup g
  flatten_eq : gs.flatten = ps

theorem IsGroup.ne_nil {g : List (List Char)} (h : IsGroup g) : g ≠ [] := by
  rintro rfl
  exact h

theorem IsGroup.equals_mem {g : List (List Char)} (h : IsGroup g) : '=' ∈ join ',' g := by
  cases g with
  | nil => exact h.elim
  | cons head tail => exact mem_join_of_mem List.mem_cons_self h.1

theorem groups_append_lead {lead : List (List Char)} (rest : List (List Char))
    (h : ∀ piece ∈ lead, '=' ∉ piece) :
    groups (lead ++ rest) = (lead ++ (groups rest).1, (groups rest).2) := by
  induction lead with
  | nil => rfl
  | cons piece lead ih =>
    rw [List.forall_mem_cons] at h
    rw [List.cons_append, groups, ih h.2]
    simp [h.1]

theorem groups_flatten_of_isGroup {gs : List (List (List Char))} (h : ∀ g ∈ gs, IsGroup g) :
    groups gs.flatten = ([], gs) := by
  -- What follows a group begins a group itself, so only the pieces of the group go on with it.
  induction gs with
  | nil => rfl
  | cons g gs ih =>
    rw [List.forall_mem_cons] at h
    cases g with
    | nil => exact h.1.elim
    | cons head tail =>
      obtain ⟨⟨hhead, htail⟩, hgs⟩ := h
      rw [List.flatten_cons, List.cons_append, groups, groups_append_lead _ htail, ih hgs]
      simp [hhead]

theorem isGroup_of_mem_groups {ps : List (List Char)} {g : List (List Char)}
    (h : g ∈ (groups ps).2) : IsGroup g := by
  induction ps with
  | nil => simp [groups] at h
  | cons piece ps ih =>
    simp only [groups] at h
    by_cases hpiece : '=' ∈ piece
    · rw [if_pos hpiece] at h
      rcases List.mem_cons.1 h with rfl | h
      · exact ⟨hpiece, fun _ => notMem_of_mem_groups_lead⟩
      · exact ih h
    · rw [if_neg hpiece] at h
      exact ih h

/-- Pieces fall into groups in the way in which they are read, and in no other. -/
theorem fallsInto_iff {ps : List (List Char)} {gs : List (List (List Char))} :
    FallsInto ps gs ↔ groups ps = ([], gs) := by
  constructor
  · rintro ⟨hgroup, rfl⟩
    exact groups_flatten_of_isGroup hgroup
  · intro h
    have hflatten := groups_flatten ps
    rw [h, List.nil_append] at hflatten
    refine ⟨fun g hg => ?_, hflatten⟩
    have hmem : g ∈ (groups ps).2 := by
      rw [h]
      exact hg
    exact isGroup_of_mem_groups hmem

/-- Pieces fall into groups exactly if the first of them has an equals sign. -/
theorem existsUnique_fallsInto_iff {ps : List (List Char)} (hne : ps ≠ []) :
    (∃! gs, FallsInto ps gs) ↔ '=' ∈ ps.headD [] := by
  cases ps with
  | nil => exact absurd rfl hne
  | cons piece ps =>
    simp only [fallsInto_iff, groups, List.headD_cons]
    by_cases hpiece : '=' ∈ piece
    · simp [hpiece]
    · simp [hpiece, ExistsUnique]

/-- The groups of the pieces of a text, joined, are the text. -/
theorem join_of_fallsInto {cs : List Char} {gs : List (List (List Char))}
    (h : FallsInto (pieces ',' cs) gs) : join ',' (gs.map (join ',')) = cs := by
  rw [join_map_join fun g hg => (h.isGroup g hg).ne_nil, h.flatten_eq, join_pieces]

/-! ## The grammar -/

/-- An entry has no key if white space alone stands before its first equals sign. -/
def Keyless (written : List Char) : Prop :=
  ∃ before after, written = before ++ '=' :: after ∧ ∀ c ∈ before, isBlank c

/-- An entry gives a value to a key: what stands after its first equals sign to what stands before
it, both trimmed. -/
def Gives (written : List Char) (e : String × String) : Prop :=
  ∃ before after, written = before ++ '=' :: after ∧ '=' ∉ before ∧
    e = (trim (String.ofList before), trim (String.ofList after))

/-- What a text says as a list of properties. -/
inductive Says (text : String) : Except Fault Properties → Prop
  /-- White space says nothing. -/
  | nothing (hblank : trim text = "") : Says text (.ok ∅)
  /-- What stands before the first comma begins no entry. -/
  | stray (hblank : trim text ≠ "") (hfirst : '=' ∉ (pieces ',' text.toList).headD []) :
    Says text (.error (.invalidProperty ""
      (trim (String.ofList ((pieces ',' text.toList).headD []))) ""))
  /-- Some entry has no key; the first of them is reported. -/
  | keyless {gs : List (List (List Char))} {written : List Char}
    (hgroups : FallsInto (pieces ',' text.toList) gs)
    (hfirst : IsFirst Keyless (gs.map (join ',')) written) :
    Says text (.error (.invalidProperty "" "" (trim (String.ofList written))))
  /-- All entries have keys; of several entries with one key the last one counts. -/
  | properties {gs : List (List (List Char))} {pairs : List (String × String)} {m : Properties}
    (hgroups : FallsInto (pieces ',' text.toList) gs)
    (hkeys : ∀ written ∈ gs.map (join ','), ¬ Keyless written)
    (hpairs : List.Forall₂ Gives (gs.map (join ',')) pairs)
    (hlast : ∀ k v, m.get? k = some v ↔ SortedMap.IsLastPair pairs k v) :
    Says text (.ok m)

/-! ## Entries -/

theorem entry_append_cons {before : List Char} (after : List Char) (h : '=' ∉ before) :
    entry (before ++ '=' :: after) =
      if trimChars before = [] then
        .error (.invalidProperty "" "" (trim (String.ofList (before ++ '=' :: after))))
      else .ok (trim (String.ofList before), trim (String.ofList after)) := by
  have hstart : '=' ∉ before.dropWhile isBlank := fun hmem =>
    h ((List.dropWhile_sublist _).mem hmem)
  -- The entry is trimmed before it is cut. An equals sign is no white space, so the cut falls in
  -- the same place.
  have hsides : cut? '=' (trimChars (before ++ '=' :: after)) =
      some (before.dropWhile isBlank, trimEnd after) := by
    rw [trimChars_append_cons (by decide), cut?_append_cons _ hstart]
  simp only [entry, hsides, Option.getD_some, trimChars_dropBlank, trimChars_trimEnd, trim,
    String.toList_ofList]

theorem keyless_append_cons_iff {before : List Char} (after : List Char) (h : '=' ∉ before) :
    Keyless (before ++ '=' :: after) ↔ trimChars before = [] := by
  rw [trimChars_eq_nil_iff]
  constructor
  · rintro ⟨before', after', heq, hblank⟩
    have hequals : '=' ∉ before' := fun hmem => absurd (hblank '=' hmem) (by decide)
    rw [(sides_unique h hequals heq).1]
    exact hblank
  · intro hblank
    exact ⟨before, after, rfl, hblank⟩

section Entry

variable {written : List Char}

theorem entry_eq_error_iff (h : '=' ∈ written) {fault : Fault} :
    entry written = .error fault ↔
      Keyless written ∧ fault = .invalidProperty "" "" (trim (String.ofList written)) := by
  obtain ⟨before, after, rfl, hbefore⟩ := List.eq_append_cons_of_mem h
  rw [entry_append_cons after hbefore, keyless_append_cons_iff after hbefore]
  by_cases hblank : trimChars before = []
  · simp [hblank, eq_comm]
  · simp [hblank]

theorem entry_eq_ok_iff (h : '=' ∈ written) {e : String × String} :
    entry written = .ok e ↔ ¬ Keyless written ∧ Gives written e := by
  obtain ⟨before, after, rfl, hbefore⟩ := List.eq_append_cons_of_mem h
  rw [entry_append_cons after hbefore, keyless_append_cons_iff after hbefore]
  have hgives : Gives (before ++ '=' :: after) e ↔
      e = (trim (String.ofList before), trim (String.ofList after)) := by
    constructor
    · rintro ⟨before', after', heq, hbefore', he⟩
      obtain ⟨rfl, rfl⟩ := sides_unique hbefore hbefore' heq
      exact he
    · intro he
      exact ⟨before, after, rfl, hbefore, he⟩
  rw [hgives]
  by_cases hblank : trimChars before = []
  · simp [hblank]
  · simp [hblank, eq_comm]

theorem fails_entry_iff (h : '=' ∈ written) : Fails entry written ↔ Keyless written := by
  unfold Fails
  simp [entry_eq_error_iff h]

end Entry

/-! ## Reading -/

section Reading

variable {text : String} {gs : List (List (List Char))}

theorem ofListing_of_blank (h : trim text = "") : ofListing text = .ok ∅ := by
  unfold ofListing
  rw [if_pos (trim_eq_empty_iff.1 h)]

theorem ofListing_of_stray (hblank : trim text ≠ "")
    (hfirst : '=' ∉ (pieces ',' text.toList).headD []) :
    ofListing text = .error (.invalidProperty ""
      (trim (String.ofList ((pieces ',' text.toList).headD []))) "") := by
  unfold ofListing
  rw [if_neg fun h => hblank (trim_eq_empty_iff.2 h)]
  cases hpieces : pieces ',' text.toList with
  | nil => exact absurd hpieces (pieces_ne_nil ',' text.toList)
  | cons first rest =>
    rw [hpieces, List.headD_cons] at hfirst
    simp [groups, hfirst]

theorem equals_mem_of_fallsInto (h : FallsInto (pieces ',' text.toList) gs) {written : List Char}
    (hwritten : written ∈ gs.map (join ',')) : '=' ∈ written := by
  obtain ⟨g, hg, rfl⟩ := List.mem_map.1 hwritten
  exact (h.isGroup g hg).equals_mem

/-- A text with groups is no white space, and is read entry by entry. -/
theorem ofListing_of_fallsInto (h : FallsInto (pieces ',' text.toList) gs) :
    ofListing text = ((gs.map (join ',')).mapM entry).map SortedMap.ofList := by
  -- Every group has an equals sign, and there is a group, since there is a piece.
  have hblank : ¬ isBlankText text := by
    intro hblank
    have hgs : gs ≠ [] := by
      rintro rfl
      exact pieces_ne_nil ',' text.toList h.flatten_eq.symm
    obtain ⟨g, hg⟩ := List.exists_mem_of_ne_nil gs hgs
    have hequals : '=' ∈ text.toList := by
      rw [← join_of_fallsInto h]
      exact mem_join_of_mem (List.mem_map_of_mem hg) (h.isGroup g hg).equals_mem
    exact absurd (List.all_eq_true.1 hblank '=' hequals) (by decide)
  unfold ofListing
  rw [if_neg hblank, fallsInto_iff.1 h, List.mapM_map]
  rfl

theorem ofListing_eq_error_iff (h : FallsInto (pieces ',' text.toList) gs) {fault : Fault} :
    ofListing text = .error fault ↔ ∃ written, IsFirst Keyless (gs.map (join ',')) written ∧
      fault = .invalidProperty "" "" (trim (String.ofList written)) := by
  have hfaults : (gs.map (join ',')).mapM entry = .error fault ↔
      ∃ written, IsFirst Keyless (gs.map (join ',')) written ∧
        fault = .invalidProperty "" "" (trim (String.ofList written)) := by
    rw [mapM_eq_error_iff_isFirst]
    refine exists_congr fun written => ?_
    rw [IsFirst.congr fun written hwritten => fails_entry_iff (equals_mem_of_fallsInto h hwritten)]
    refine and_congr_right fun hfirst => ?_
    rw [entry_eq_error_iff (equals_mem_of_fallsInto h hfirst.mem)]
    exact and_iff_right hfirst.holds
  rw [ofListing_of_fallsInto h, ← hfaults]
  cases (gs.map (join ',')).mapM entry <;> simp [Except.map]

theorem ofListing_eq_ok_iff (h : FallsInto (pieces ',' text.toList) gs) {m : Properties} :
    ofListing text = .ok m ↔ (∀ written ∈ gs.map (join ','), ¬ Keyless written) ∧
      ∃ pairs, List.Forall₂ Gives (gs.map (join ',')) pairs ∧ m = SortedMap.ofList pairs := by
  have hentries : ∀ pairs, (gs.map (join ',')).mapM entry = .ok pairs ↔
      (∀ written ∈ gs.map (join ','), ¬ Keyless written) ∧
        List.Forall₂ Gives (gs.map (join ',')) pairs := by
    intro pairs
    rw [mapM_eq_ok_iff_forall₂, ← List.forall₂_and_left]
    exact forall₂_congr_of_mem fun written hwritten _ =>
      entry_eq_ok_iff (equals_mem_of_fallsInto h hwritten)
  have hmap : ofListing text = .ok m ↔
      ∃ pairs, (gs.map (join ',')).mapM entry = .ok pairs ∧ m = SortedMap.ofList pairs := by
    rw [ofListing_of_fallsInto h]
    cases (gs.map (join ',')).mapM entry <;> simp [Except.map, eq_comm]
  rw [hmap]
  simp only [hentries, and_assoc, exists_and_left]

theorem Says.eq {result : Except Fault Properties} (h : Says text result) :
    ofListing text = result := by
  cases h with
  | nothing hblank => exact ofListing_of_blank hblank
  | stray hblank hfirst => exact ofListing_of_stray hblank hfirst
  | keyless hgroups hfirst => exact (ofListing_eq_error_iff hgroups).2 ⟨_, hfirst, rfl⟩
  | @properties _ pairs m hgroups hkeys hpairs hlast =>
    have hm : m = SortedMap.ofList pairs := by
      apply SortedMap.ext_get?
      intro k
      apply Option.ext
      intro v
      rw [hlast, SortedMap.get?_ofList_eq_some_iff]
    exact (ofListing_eq_ok_iff hgroups).2 ⟨hkeys, pairs, hpairs, hm⟩

theorem says_ofListing (text : String) : Says text (ofListing text) := by
  by_cases hblank : trim text = ""
  · rw [ofListing_of_blank hblank]
    exact .nothing hblank
  by_cases hfirst : '=' ∈ (pieces ',' text.toList).headD []
  · obtain ⟨gs, hgroups, _⟩ :=
      (existsUnique_fallsInto_iff (pieces_ne_nil ',' text.toList)).2 hfirst
    cases hread : ofListing text with
    | error fault =>
      obtain ⟨written, hwritten, rfl⟩ := (ofListing_eq_error_iff hgroups).1 hread
      exact .keyless hgroups hwritten
    | ok m =>
      obtain ⟨hkeys, pairs, hpairs, rfl⟩ := (ofListing_eq_ok_iff hgroups).1 hread
      exact .properties hgroups hkeys hpairs fun _ _ => SortedMap.get?_ofList_eq_some_iff
  · rw [ofListing_of_stray hblank hfirst]
    exact .stray hblank hfirst

end Reading

/-! ## The law -/

/-- A text is read as what it says, and says one thing. Its pieces fall into groups if the first
of them has an equals sign, and in one way; and the groups, joined, are the text. -/
theorem reading_is_what_a_list_says (text : String) :
    (∀ result, ofListing text = result ↔ Says text result) ∧
    ((∃! gs, FallsInto (pieces ',' text.toList) gs) ↔ '=' ∈ (pieces ',' text.toList).headD []) ∧
    ∀ gs, FallsInto (pieces ',' text.toList) gs → join ',' (gs.map (join ',')) = text.toList := by
  refine ⟨fun result => ⟨?_, Says.eq⟩, ?_, fun gs => join_of_fallsInto⟩
  · rintro rfl
    exact says_ofListing text
  · exact existsUnique_fallsInto_iff (pieces_ne_nil ',' text.toList)

-- A value keeps its commas and its equals signs, and the last entry of a key counts.
example :
    ofListing " expr = a, b ,key=x==y,expr=c,, " =
      .ok (.ofList [("expr", "c,,"), ("key", "x==y")]) := by
  decide +kernel

end Rollout.Properties
