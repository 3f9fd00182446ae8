-- Property lists written and read. Pairs that can be printed are read back from their list as the
-- map of them, and whatever is read from a text can be printed. So a map that was read is read
-- again from the list of its entries, in whatever order they are printed.
import Rollout.Proofs.ListingGrammar

namespace Rollout.Properties

open Rollout.Text

/-! ## Pairs that can be printed -/

/-- A pair can be printed: nothing of it is lost to trimming, its key ends at the first equals sign,
and no piece of its value would begin an entry. -/
structure Printable (e : String × String) : Prop where
  key_ne : e.1 ≠ ""
  key_trimmed : trim e.1 = e.1
  key_no_equals : '=' ∉ e.1.toList
  key_no_comma : ',' ∉ e.1.toList
  value_trimmed : trim e.2 = e.2
  value_no_equals : ∀ piece ∈ (pieces ',' e.2.toList).tail, '=' ∉ piece

instance : DecidablePred Printable := fun e =>
  decidable_of_iff
    (e.1 ≠ "" ∧ trim e.1 = e.1 ∧ '=' ∉ e.1.toList ∧ ',' ∉ e.1.toList ∧ trim e.2 = e.2 ∧
      ∀ piece ∈ (pieces ',' e.2.toList).tail, '=' ∉ piece)
    ⟨fun ⟨h₁, h₂, h₃, h₄, h₅, h₆⟩ => ⟨h₁, h₂, h₃, h₄, h₅, h₆⟩,
      fun ⟨h₁, h₂, h₃, h₄, h₅, h₆⟩ => ⟨h₁, h₂, h₃, h₄, h₅, h₆⟩⟩

/-- A pair as it stands in a list. -/
def printed (e : String × String) : List Char := e.1.toList ++ '=' :: e.2.toList

theorem toList_listing (pairs : List (String × String)) :
    (listing pairs).toList = join ',' (pairs.map printed) := by
  rw [listing, String.toList_ofList]
  rfl

/-! ## Written and read -/

section Printed

variable {e : String × String}

theorem isGroup_pieces_printed (h : Printable e) : IsGroup (pieces ',' (printed e)) := by
  cases hvalue : pieces ',' e.2.toList with
  | nil => exact absurd hvalue (pieces_ne_nil ',' e.2.toList)
  | cons first rest =>
    have hkey : ',' ∉ e.1.toList ++ ['='] := by simp [h.key_no_comma]
    have hpieces := pieces_append_of_notMem hkey hvalue
    rw [List.append_assoc, List.singleton_append] at hpieces
    have hrest := h.value_no_equals
    rw [hvalue] at hrest
    rw [printed, hpieces]
    exact ⟨by simp, hrest⟩

theorem gives_printed (h : Printable e) : Gives (printed e) e :=
  ⟨e.1.toList, e.2.toList, rfl, h.key_no_equals, by
    rw [String.ofList_toList, String.ofList_toList, h.key_trimmed, h.value_trimmed]⟩

theorem not_keyless_printed (h : Printable e) : ¬ Keyless (printed e) := by
  rw [printed, keyless_append_cons_iff _ h.key_no_equals, ← toList_trim, h.key_trimmed]
  simpa using h.key_ne

end Printed

/-- The pairs of a list are its groups, whatever commas stand in the values. -/
theorem fallsInto_listing {pairs : List (String × String)} (h : ∀ e ∈ pairs, Printable e)
    (hne : pairs ≠ []) :
    FallsInto (pieces ',' (listing pairs).toList) (pairs.map fun e => pieces ',' (printed e)) := by
  constructor
  · intro g hg
    obtain ⟨e, he, rfl⟩ := List.mem_map.1 hg
    exact isGroup_pieces_printed (h e he)
  · rw [toList_listing, pieces_join_eq_flatMap (by simpa using hne), List.flatMap_map]
    rfl

theorem ofListing_listing {pairs : List (String × String)} (h : ∀ e ∈ pairs, Printable e) :
    ofListing (listing pairs) = .ok (SortedMap.ofList pairs) := by
  by_cases hne : pairs = []
  · subst hne
    exact ofListing_of_blank rfl
  · have hjoined : (pairs.map fun e => pieces ',' (printed e)).map (join ',') =
        pairs.map printed := by
      rw [List.map_map]
      exact List.map_congr_left fun e _ => join_pieces ',' (printed e)
    apply (ofListing_eq_ok_iff (fallsInto_listing h hne)).2
    rw [hjoined]
    refine ⟨?_, pairs, ?_, rfl⟩
    · intro written hwritten
      obtain ⟨e, he, rfl⟩ := List.mem_map.1 hwritten
      exact not_keyless_printed (h e he)
    · rw [List.forall₂_map_left_iff, List.forall₂_same]
      exact fun e he => gives_printed (h e he)

/-! ## Read and written -/

/-- Trimming moves nothing from one piece to another. -/
theorem notMem_tail_pieces_trimChars {sep c : Char} {cs : List Char} (hsep : isBlank sep = false)
    (hc : c ≠ sep) (h : ∀ piece ∈ (pieces sep cs).tail, c ∉ piece) :
    ∀ piece ∈ (pieces sep (trimChars cs)).tail, c ∉ piece := by
  by_cases hmem : sep ∈ cs
  · obtain ⟨before, after, rfl, hbefore⟩ := List.eq_append_cons_of_mem hmem
    have hstart : sep ∉ before.dropWhile isBlank := fun hmem =>
      hbefore ((List.dropWhile_sublist _).mem hmem)
    rw [pieces_append _ hbefore, List.tail_cons] at h
    rw [trimChars_append_cons hsep, pieces_append _ hstart, List.tail_cons]
    intro piece hpiece hin
    have hafter : c ∈ after := mem_of_mem_trimEnd (mem_of_mem_pieces hpiece hin)
    rw [← join_pieces sep after] at hafter
    rcases mem_join hafter with heq | ⟨piece', hpiece', hin'⟩
    · exact hc heq
    · exact h piece' hpiece' hin'
  · rw [pieces_of_notMem fun hin => hmem (mem_of_mem_trimChars hin)]
    simp

/-- What a group gives can be printed. -/
theorem printable_of_gives {g : List (List Char)} {e : String × String} (hgroup : IsGroup g)
    (hcomma : ∀ piece ∈ g, ',' ∉ piece) (hkey : ¬ Keyless (join ',' g))
    (h : Gives (join ',' g) e) : Printable e := by
  obtain ⟨before, after, hwritten, hbefore, rfl⟩ := h
  cases g with
  | nil => exact hgroup.elim
  | cons head tail =>
    -- The first equals sign of the group stands in its first piece, so the key has no comma, and
    -- the pieces of the value are the rest of that piece and the other pieces.
    obtain ⟨hhead, htail⟩ := hgroup
    obtain ⟨before', first, rfl, hbefore'⟩ := List.eq_append_cons_of_mem hhead
    have hjoined : join ',' ((before' ++ '=' :: first) :: tail) =
        before' ++ '=' :: join ',' (first :: tail) := by
      have happend := join_append_cons ',' (before' ++ ['=']) first tail
      simpa using happend
    rw [hjoined] at hwritten hkey
    obtain ⟨rfl, rfl⟩ := sides_unique hbefore' hbefore hwritten
    rw [keyless_append_cons_iff _ hbefore] at hkey
    rw [List.forall_mem_cons] at hcomma
    obtain ⟨hheadComma, htailComma⟩ := hcomma
    have hvalue : pieces ',' (join ',' (first :: tail)) = first :: tail := by
      apply pieces_join (by simp)
      rw [List.forall_mem_cons]
      exact ⟨fun hmem => hheadComma (by simp [hmem]), htailComma⟩
    constructor
    · intro hempty
      exact hkey (by simpa using congrArg String.toList hempty)
    · exact trim_trim _
    · intro hmem
      exact hbefore (by simpa using mem_of_mem_trimChars (by simpa using hmem))
    · intro hmem
      have hin : ',' ∈ before' := by simpa using mem_of_mem_trimChars (by simpa using hmem)
      exact hheadComma (by simp [hin])
    · exact trim_trim _
    · rw [toList_trim, String.toList_ofList]
      apply notMem_tail_pieces_trimChars (by decide) (by decide)
      rw [hvalue]
      exact htail

/-- Whatever is read from a text can be printed. -/
theorem printable_of_ofListing {text : String} {m : Properties} (h : ofListing text = .ok m)
    {e : String × String} (he : e ∈ m.toList) : Printable e := by
  have hsays := says_ofListing text
  rw [h] at hsays
  cases hsays with
  | nothing => cases he
  | properties hgroups hkeys hpairs hlast =>
    have hpair := ((hlast e.1 e.2).1 (SortedMap.get?_eq_some_iff.2 he)).mem
    obtain ⟨written, hwritten, hgives⟩ := Traversal.exists_mem_of_forall₂ hpairs hpair
    have hkey := hkeys written hwritten
    obtain ⟨g, hg, rfl⟩ := List.mem_map.1 hwritten
    refine printable_of_gives (hgroups.isGroup g hg) (fun piece hpiece => ?_) hkey hgives
    have hmem : piece ∈ pieces ',' text.toList := by
      rw [← hgroups.flatten_eq]
      exact List.mem_flatten_of_mem hg hpiece
    exact sep_notMem_of_mem_pieces hmem

/-! ## The law -/

/-- A list of printable pairs is read as the map of the pairs, put in one after the other. What is
read from a text is printable, and is read again from its entries, in whatever order they are
printed. -/
theorem printed_properties_are_read_back :
    (∀ pairs, (∀ e ∈ pairs, Printable e) →
      ofListing (listing pairs) = .ok (SortedMap.ofList pairs)) ∧
    ∀ text m, ofListing text = .ok m →
      (∀ e ∈ m.toList, Printable e) ∧
        ∀ pairs, pairs.Perm m.toList → ofListing (listing pairs) = .ok m := by
  refine ⟨fun pairs => ofListing_listing, fun text m h => ?_⟩
  have hprintable : ∀ e ∈ m.toList, Printable e := fun e => printable_of_ofListing h
  refine ⟨hprintable, fun pairs hperm => ?_⟩
  have hpairs : ∀ e ∈ pairs, Printable e := fun e he => hprintable e (hperm.mem_iff.1 he)
  rw [ofListing_listing hpairs, SortedMap.ofList_of_mem_iff fun e => hperm.mem_iff]

/-- Of three pairs that have commas and equals signs in their values, two with one key. -/
theorem commas_and_equals_signs_are_read_back :
    (∀ e ∈ [("expr", "a==1, b,"), ("key", ""), ("expr", ",,c")], Printable e) ∧
      listing [("expr", "a==1, b,"), ("key", ""), ("expr", ",,c")] =
        "expr=a==1, b,,key=,expr=,,c" ∧
      ofListing (listing [("expr", "a==1, b,"), ("key", ""), ("expr", ",,c")]) =
        .ok (.ofList [("expr", ",,c"), ("key", "")]) := by
  have hprintable : ∀ e ∈ [("expr", "a==1, b,"), ("key", ""), ("expr", ",,c")], Printable e := by
    decide +kernel
  refine ⟨hprintable, by decide +kernel, ?_⟩
  rw [printed_properties_are_read_back.1 _ hprintable]
  decide +kernel

end Rollout.Properties
