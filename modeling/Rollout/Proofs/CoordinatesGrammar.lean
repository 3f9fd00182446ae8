-- The grammar of coordinates, told twice: by the parts between the colons, and by a pattern with
-- numbered parts, one of them optional inside another. A text is read as coordinates exactly if it
-- has the grammar, and the pattern keeps the same parts in the only ways in which it can fit.
import Rollout.Proofs.CoordinatesText
import Rollout.Text.Pattern

namespace Rollout.Coordinates

open Rollout.Text

/-! ## By parts -/

/-- Parts that make coordinates: three to five of them, of which the first two and the last are not
empty, nor the fourth of five. -/
structure Grammatical (parts : List (List Char)) : Prop where
  three_le : 3 ≤ parts.length
  le_five : parts.length ≤ 5
  group_ne : parts.getD 0 [] ≠ []
  artifact_ne : parts.getD 1 [] ≠ []
  version_ne : parts.getLastD [] ≠ []
  classifier_ne : parts.length = 5 → parts.getD 3 [] ≠ []

/-- The coordinates that parts make. -/
def ofParts (parts : List (List Char)) : Coordinates where
  group := String.ofList (parts.getD 0 [])
  artifact := String.ofList (parts.getD 1 [])
  extension :=
    if 4 ≤ parts.length ∧ parts.getD 2 [] ≠ [] then String.ofList (parts.getD 2 [])
    else defaultExtension
  classifier := if parts.length = 5 then String.ofList (parts.getD 3 []) else ""
  version := String.ofList (parts.getLastD [])

/-- Grammatical parts are of one of three shapes. -/
theorem grammatical_iff {parts : List (List Char)} :
    Grammatical parts ↔ ∃ group artifact version,
      (group ≠ [] ∧ artifact ≠ [] ∧ version ≠ []) ∧
        (parts = [group, artifact, version] ∨
          (∃ extension, parts = [group, artifact, extension, version]) ∨
          ∃ extension classifier, classifier ≠ [] ∧
            parts = [group, artifact, extension, classifier, version]) := by
  constructor
  · rintro ⟨hthree, hfive, hgroup, hartifact, hversion, hclassifier⟩
    match parts with
    | [group, artifact, version] =>
      exact ⟨group, artifact, version, ⟨hgroup, hartifact, hversion⟩, Or.inl rfl⟩
    | [group, artifact, extension, version] =>
      exact ⟨group, artifact, version, ⟨hgroup, hartifact, hversion⟩, Or.inr (Or.inl ⟨_, rfl⟩)⟩
    | [group, artifact, extension, classifier, version] =>
      exact ⟨group, artifact, version, ⟨hgroup, hartifact, hversion⟩,
        Or.inr (Or.inr ⟨_, _, hclassifier rfl, rfl⟩)⟩
    | [] | [_] | [_, _] =>
      simp only [List.length_cons, List.length_nil] at hthree
      omega
    | _ :: _ :: _ :: _ :: _ :: _ :: _ =>
      simp only [List.length_cons] at hfive
      omega
  · rintro ⟨group, artifact, version, ⟨hgroup, hartifact, hversion⟩,
      rfl | ⟨extension, rfl⟩ | ⟨extension, classifier, hclassifier, rfl⟩⟩
    · exact ⟨by simp, by simp, hgroup, hartifact, hversion, by simp⟩
    · exact ⟨by simp, by simp, hgroup, hartifact, hversion, by simp⟩
    · exact ⟨by simp, by simp, hgroup, hartifact, hversion, fun _ => hclassifier⟩

theorem ofParts?_of_grammatical {parts : List (List Char)} (h : Grammatical parts) :
    ofParts? parts = some (ofParts parts) := by
  obtain ⟨group, artifact, version, hne, rfl | ⟨extension, rfl⟩ |
    ⟨extension, classifier, hclassifier, rfl⟩⟩ := grammatical_iff.1 h
  · simp [ofParts?, ofParts?.make?, ofParts, hne]
  · by_cases hextension : extension = []
    · simp [ofParts?, ofParts?.make?, ofParts, hne, hextension]
    · simp [ofParts?, ofParts?.make?, ofParts, hne, hextension]
  · by_cases hextension : extension = []
    · simp [ofParts?, ofParts?.make?, ofParts, hne, hclassifier, hextension]
    · simp [ofParts?, ofParts?.make?, ofParts, hne, hclassifier, hextension]

theorem nonempty_of_make? {group artifact extension classifier version : List Char}
    {c : Coordinates}
    (h : ofParts?.make? group artifact extension classifier version = some c) :
    group ≠ [] ∧ artifact ≠ [] ∧ version ≠ [] := by
  unfold ofParts?.make? at h
  split at h
  · cases h
  · next hne => simpa only [not_or] using hne

theorem grammatical_of_ofParts? {parts : List (List Char)} {c : Coordinates}
    (h : ofParts? parts = some c) : Grammatical parts := by
  unfold ofParts? at h
  rw [grammatical_iff]
  split at h
  · exact ⟨_, _, _, nonempty_of_make? h, Or.inl rfl⟩
  · exact ⟨_, _, _, nonempty_of_make? h, Or.inr (Or.inl ⟨_, rfl⟩)⟩
  · split at h
    · cases h
    · next hclassifier =>
      exact ⟨_, _, _, nonempty_of_make? h, Or.inr (Or.inr ⟨_, _, hclassifier, rfl⟩)⟩
  · cases h

/-- A text is read as coordinates exactly if it has no space and its parts are grammatical. -/
theorem parse?_eq_some_iff {s : String} {c : Coordinates} :
    parse? s = some c ↔
      ' ' ∉ s.toList ∧ Grammatical (pieces ':' s.toList) ∧ c = ofParts (pieces ':' s.toList) := by
  unfold parse?
  by_cases hspace : ' ' ∈ s.toList
  · simp [hspace]
  · rw [if_neg hspace]
    constructor
    · intro h
      have hparts := grammatical_of_ofParts? h
      rw [ofParts?_of_grammatical hparts, Option.some.injEq] at h
      exact ⟨hspace, hparts, h.symm⟩
    · rintro ⟨_, hparts, rfl⟩
      exact ofParts?_of_grammatical hparts

theorem parse?_eq_none_iff {s : String} :
    parse? s = none ↔ ¬ (' ' ∉ s.toList ∧ Grammatical (pieces ':' s.toList)) := by
  rw [Option.eq_none_iff_forall_ne_some]
  constructor
  · rintro h ⟨hspace, hparts⟩
    exact h _ (parse?_eq_some_iff.2 ⟨hspace, hparts, rfl⟩)
  · intro h c hc
    obtain ⟨hspace, hparts, _⟩ := parse?_eq_some_iff.1 hc
    exact h ⟨hspace, hparts⟩

/-! ## By a pattern -/

/-- Characters that are neither colons nor spaces. -/
def Plain (cs : List Char) : Prop := ∀ c ∈ cs, c ∉ [':', ' ']

theorem plain_iff {cs : List Char} : Plain cs ↔ ':' ∉ cs ∧ ' ' ∉ cs := by
  unfold Plain
  constructor
  · exact fun h => ⟨fun hmem => h _ hmem (by decide), fun hmem => h _ hmem (by decide)⟩
  · rintro ⟨hcolon, hspace⟩ c hc hmem
    rcases List.mem_cons.1 hmem with rfl | hmem
    · exact hcolon hc
    · exact hspace (List.mem_singleton.1 hmem ▸ hc)

/-- A part of coordinates that is kept under a number: some characters that are neither colons nor
spaces, and at least so many. -/
def part (number least : Nat) : Pattern := .keep number (.run least [':', ' '])

/-- An extension after a colon, with or without a classifier after another. -/
def middle : Pattern :=
  .keep 3 (.char ':' ++ part 4 0 ++ .optional (.keep 5 (.char ':' ++ part 6 1)))

/-- Coordinates as a whole text: `([^: ]+):([^: ]+)(:([^: ]*)(:([^: ]+))?)?:([^: ]+)$`. -/
def pattern : Pattern :=
  part 1 1 ++ .char ':' ++ part 2 1 ++ .optional middle ++ .char ':' ++ part 7 1 ++ .atEnd

/-- What the pattern keeps of grammatical parts. -/
def keptOf : List (List Char) → List (Nat × List Char)
  | [group, artifact, version] => [(1, group), (2, artifact), (7, version)]
  | [group, artifact, extension, version] =>
    [(1, group), (2, artifact), (3, ':' :: extension), (4, extension), (7, version)]
  | [group, artifact, extension, classifier, version] =>
    [(1, group), (2, artifact), (3, ':' :: (extension ++ ':' :: classifier)), (4, extension),
      (5, ':' :: classifier), (6, classifier), (7, version)]
  | _ => []

theorem takes_part_iff {number least : Nat} {taken rest : List Char}
    {kept : List (Nat × List Char)} :
    (part number least).Takes taken kept rest ↔
      (least ≤ taken.length ∧ Plain taken) ∧ kept = [(number, taken)] := by
  constructor
  · rintro ⟨_, rfl, htaken, rfl⟩
    exact ⟨htaken, rfl⟩
  · rintro ⟨htaken, rfl⟩
    exact ⟨[], rfl, htaken, rfl⟩

theorem takes_part_one_iff {number : Nat} {taken rest : List Char}
    {kept : List (Nat × List Char)} :
    (part number 1).Takes taken kept rest ↔
      (taken ≠ [] ∧ Plain taken) ∧ kept = [(number, taken)] := by
  rw [takes_part_iff, ← List.length_pos_iff]
  rfl

/-- What stands between artifact and version: nothing, an extension, or an extension and a
classifier. -/
theorem takes_optional_middle_iff {taken rest : List Char} {kept : List (Nat × List Char)} :
    (Pattern.optional middle).Takes taken kept rest ↔
      (taken = [] ∧ kept = []) ∨
        (∃ extension, Plain extension ∧
          taken = ':' :: extension ∧ kept = [(3, ':' :: extension), (4, extension)]) ∨
        ∃ extension classifier, Plain extension ∧ (classifier ≠ [] ∧ Plain classifier) ∧
          taken = ':' :: (extension ++ ':' :: classifier) ∧
          kept = [(3, ':' :: (extension ++ ':' :: classifier)), (4, extension),
            (5, ':' :: classifier), (6, classifier)] := by
  constructor
  · rintro (⟨_, rfl, _, _, _, _, rfl, rfl,
      ⟨_, extension, _, _, rfl, rfl, ⟨rfl, rfl⟩, htakes⟩, hrest⟩ | ⟨rfl, rfl⟩)
    · obtain ⟨⟨_, hextension⟩, rfl⟩ := takes_part_iff.1 htakes
      rcases hrest with ⟨_, rfl, _, classifier, _, _, rfl, rfl, ⟨rfl, rfl⟩, htakes'⟩ | ⟨rfl, rfl⟩
      · obtain ⟨hclassifier, rfl⟩ := takes_part_one_iff.1 htakes'
        exact Or.inr (Or.inr ⟨extension, classifier, hextension, hclassifier, by simp, by simp⟩)
      · exact Or.inr (Or.inl ⟨extension, hextension, by simp, by simp⟩)
    · exact Or.inl ⟨rfl, rfl⟩
  · rintro (⟨rfl, rfl⟩ | ⟨extension, hextension, rfl, rfl⟩ |
      ⟨extension, classifier, hextension, hclassifier, rfl, rfl⟩)
    · exact Pattern.takes_optional_nil _ rest
    · have htakes : middle.Takes ([':'] ++ extension ++ [])
          ((3, [':'] ++ extension ++ []) :: ([] ++ [(4, extension)] ++ [])) rest := by
        refine .keep 3 (.append (.append ?_ ?_) ?_)
        · exact Pattern.takes_char ':' _
        · exact takes_part_iff.2 ⟨⟨Nat.zero_le _, hextension⟩, rfl⟩
        · exact Pattern.takes_optional_nil _ rest
      apply Pattern.Takes.optional
      simpa using htakes
    · have htakes : middle.Takes ([':'] ++ extension ++ ([':'] ++ classifier))
          ((3, [':'] ++ extension ++ ([':'] ++ classifier)) ::
            ([] ++ [(4, extension)] ++ (5, [':'] ++ classifier) :: ([] ++ [(6, classifier)])))
          rest := by
        refine .keep 3 (.append (.append ?_ ?_) (.optional (.keep 5 (.append ?_ ?_))))
        · exact Pattern.takes_char ':' _
        · exact takes_part_iff.2 ⟨⟨Nat.zero_le _, hextension⟩, rfl⟩
        · exact Pattern.takes_char ':' _
        · exact takes_part_one_iff.2 ⟨hclassifier, rfl⟩
      apply Pattern.Takes.optional
      simpa using htakes

theorem takes_pattern_iff {taken rest : List Char} {kept : List (Nat × List Char)} :
    pattern.Takes taken kept rest ↔ ∃ group artifact version between keptBetween,
      ((group ≠ [] ∧ Plain group) ∧ (artifact ≠ [] ∧ Plain artifact) ∧
        (version ≠ [] ∧ Plain version)) ∧
      (Pattern.optional middle).Takes between keptBetween (':' :: version) ∧
      taken = group ++ ':' :: (artifact ++ between ++ ':' :: version) ∧
      kept = (1, group) :: (2, artifact) :: (keptBetween ++ [(7, version)]) ∧ rest = [] := by
  constructor
  -- The pattern is taken apart from its end.
  · rintro ⟨_, _, _, _, rfl, rfl, ⟨_, version, _, _, rfl, rfl, ⟨_, _, _, _, rfl, rfl,
      ⟨_, between, _, keptBetween, rfl, rfl, ⟨_, artifact, _, _, rfl, rfl,
      ⟨group, _, _, _, rfl, rfl, htakes, ⟨rfl, rfl⟩⟩, htakes'⟩, hmiddle⟩, ⟨rfl, rfl⟩⟩,
      htakes''⟩, ⟨rfl, rfl, rfl⟩⟩
    obtain ⟨hgroup, rfl⟩ := takes_part_one_iff.1 htakes
    obtain ⟨hartifact, rfl⟩ := takes_part_one_iff.1 htakes'
    obtain ⟨hversion, rfl⟩ := takes_part_one_iff.1 htakes''
    refine ⟨group, artifact, version, between, keptBetween, ⟨hgroup, hartifact, hversion⟩, ?_, ?_,
      ?_, rfl⟩
    · simpa using hmiddle
    · simp
    · simp
  · rintro ⟨group, artifact, version, between, keptBetween, ⟨hgroup, hartifact, hversion⟩, hmiddle,
      rfl, rfl, rfl⟩
    have htakes : pattern.Takes (group ++ [':'] ++ artifact ++ between ++ [':'] ++ version ++ [])
        ([(1, group)] ++ [] ++ [(2, artifact)] ++ keptBetween ++ [] ++ [(7, version)] ++ []) [] := by
      refine .append (.append (.append (.append (.append (.append ?_ ?_) ?_) ?_) ?_) ?_) ?_
      · exact takes_part_one_iff.2 ⟨hgroup, rfl⟩
      · exact Pattern.takes_char ':' _
      · exact takes_part_one_iff.2 ⟨hartifact, rfl⟩
      · simpa using hmiddle
      · exact Pattern.takes_char ':' _
      · exact takes_part_one_iff.2 ⟨hversion, rfl⟩
      · exact Pattern.takes_atEnd
    simpa using htakes

/-- The pattern takes what has plain, grammatical parts, and keeps each in its place. -/
theorem takes_pattern_iff_parts {taken rest : List Char} {kept : List (Nat × List Char)} :
    pattern.Takes taken kept rest ↔ ∃ parts, Grammatical parts ∧ (∀ t ∈ parts, Plain t) ∧
      taken = join ':' parts ∧ kept = keptOf parts ∧ rest = [] := by
  rw [takes_pattern_iff]
  constructor
  · rintro ⟨group, artifact, version, between, keptBetween,
      ⟨⟨hne, hgroup⟩, ⟨hne', hartifact⟩, hne'', hversion⟩, hmiddle, rfl, rfl, rfl⟩
    rcases takes_optional_middle_iff.1 hmiddle with ⟨rfl, rfl⟩ |
      ⟨extension, hextension, rfl, rfl⟩ |
      ⟨extension, classifier, hextension, ⟨hneClassifier, hclassifier⟩, rfl, rfl⟩
    · refine ⟨[group, artifact, version], ?_, ?_, by simp [join], rfl, rfl⟩
      · exact grammatical_iff.2 ⟨group, artifact, version, ⟨hne, hne', hne''⟩, Or.inl rfl⟩
      · simp [hgroup, hartifact, hversion]
    · refine ⟨[group, artifact, extension, version], ?_, ?_, by simp [join], rfl, rfl⟩
      · exact grammatical_iff.2 ⟨group, artifact, version, ⟨hne, hne', hne''⟩,
          Or.inr (Or.inl ⟨extension, rfl⟩)⟩
      · simp [hgroup, hartifact, hextension, hversion]
    · refine ⟨[group, artifact, extension, classifier, version], ?_, ?_, by simp [join], rfl, rfl⟩
      · exact grammatical_iff.2 ⟨group, artifact, version, ⟨hne, hne', hne''⟩,
          Or.inr (Or.inr ⟨extension, classifier, hneClassifier, rfl⟩)⟩
      · simp [hgroup, hartifact, hextension, hclassifier, hversion]
  · rintro ⟨parts, hparts, hplain, rfl, rfl, rfl⟩
    obtain ⟨group, artifact, version, ⟨hne, hne', hne''⟩, rfl | ⟨extension, rfl⟩ |
      ⟨extension, classifier, hneClassifier, rfl⟩⟩ := grammatical_iff.1 hparts
    · simp only [List.forall_mem_cons] at hplain
      obtain ⟨hgroup, hartifact, hversion, _⟩ := hplain
      refine ⟨group, artifact, version, [], [],
        ⟨⟨hne, hgroup⟩, ⟨hne', hartifact⟩, hne'', hversion⟩, ?_, by simp [join], rfl, rfl⟩
      exact takes_optional_middle_iff.2 (Or.inl ⟨rfl, rfl⟩)
    · simp only [List.forall_mem_cons] at hplain
      obtain ⟨hgroup, hartifact, hextension, hversion, _⟩ := hplain
      refine ⟨group, artifact, version, ':' :: extension,
        [(3, ':' :: extension), (4, extension)],
        ⟨⟨hne, hgroup⟩, ⟨hne', hartifact⟩, hne'', hversion⟩, ?_, by simp [join], rfl, rfl⟩
      exact takes_optional_middle_iff.2 (Or.inr (Or.inl ⟨extension, hextension, rfl, rfl⟩))
    · simp only [List.forall_mem_cons] at hplain
      obtain ⟨hgroup, hartifact, hextension, hclassifier, hversion, _⟩ := hplain
      refine ⟨group, artifact, version, ':' :: (extension ++ ':' :: classifier),
        [(3, ':' :: (extension ++ ':' :: classifier)), (4, extension), (5, ':' :: classifier),
          (6, classifier)],
        ⟨⟨hne, hgroup⟩, ⟨hne', hartifact⟩, hne'', hversion⟩, ?_, by simp [join], rfl, rfl⟩
      exact takes_optional_middle_iff.2
        (Or.inr (Or.inr ⟨extension, classifier, hextension, ⟨hneClassifier, hclassifier⟩, rfl, rfl⟩))

/-- The pattern fits a text only as a whole and in one way. -/
theorem mem_fits_pattern_iff {cs : List Char} {f : Fit} :
    f ∈ pattern.fits cs ↔
      ' ' ∉ cs ∧ Grammatical (pieces ':' cs) ∧ f = ⟨cs, keptOf (pieces ':' cs), []⟩ := by
  rw [Pattern.mem_fits_iff, takes_pattern_iff_parts]
  obtain ⟨taken, kept, rest⟩ := f
  rw [Fit.mk.injEq]
  constructor
  · rintro ⟨hcs, parts, hparts, hplain, htaken, rfl, rfl⟩
    rw [List.append_nil] at hcs
    subst hcs htaken
    have hpieces : pieces ':' (join ':' parts) = parts := by
      apply pieces_join
      · rintro rfl
        exact absurd hparts.three_le (by decide)
      · exact fun t ht => (plain_iff.1 (hplain t ht)).1
    rw [hpieces]
    refine ⟨?_, hparts, rfl, rfl, rfl⟩
    intro hspace
    rcases mem_join hspace with heq | ⟨t, ht, hmem⟩
    · exact absurd heq (by decide)
    · exact (plain_iff.1 (hplain t ht)).2 hmem
  · rintro ⟨hspace, hparts, rfl, rfl, rfl⟩
    refine ⟨(List.append_nil _).symm, _, hparts, ?_, (join_pieces ':' _).symm, rfl, rfl⟩
    intro t ht
    exact plain_iff.2 ⟨sep_notMem_of_mem_pieces ht, fun hmem => hspace (mem_of_mem_pieces ht hmem)⟩

example :
    pattern.fits "g:a::x:1".toList =
      [⟨"g:a::x:1".toList, keptOf ["g".toList, "a".toList, [], "x".toList, "1".toList], []⟩] := by
  decide

/-- What is kept under a number, or nothing. -/
def keptAs (number : Nat) (kept : List (Nat × List Char)) : List Char :=
  (kept.lookup number).getD []

/-- The coordinates of the parts that the pattern keeps. -/
def ofKept (kept : List (Nat × List Char)) : Coordinates where
  group := String.ofList (keptAs 1 kept)
  artifact := String.ofList (keptAs 2 kept)
  extension :=
    if keptAs 4 kept = [] then defaultExtension else String.ofList (keptAs 4 kept)
  classifier := String.ofList (keptAs 6 kept)
  version := String.ofList (keptAs 7 kept)

theorem ofKept_keptOf {parts : List (List Char)} (h : Grammatical parts) :
    ofKept (keptOf parts) = ofParts parts := by
  obtain ⟨group, artifact, version, _, rfl | ⟨extension, rfl⟩ | ⟨extension, classifier, _, rfl⟩⟩ :=
    grammatical_iff.1 h
  · rfl
  · by_cases hextension : extension = []
    · subst hextension
      rfl
    · simp [ofKept, keptOf, keptAs, ofParts, hextension, List.lookup_cons]
  · by_cases hextension : extension = []
    · subst hextension
      rfl
    · simp [ofKept, keptOf, keptAs, ofParts, hextension, List.lookup_cons]

/-- Reading by the pattern is reading by parts. -/
theorem parse?_eq_map_fit? (s : String) :
    parse? s = (pattern.fit? s.toList).map fun f => ofKept f.kept := by
  cases hfit : pattern.fit? s.toList with
  | none =>
    have hnil : pattern.fits s.toList = [] := List.head?_eq_none_iff.1 hfit
    rw [Option.map_none, parse?_eq_none_iff]
    rintro ⟨hspace, hparts⟩
    have hmem := mem_fits_pattern_iff.2 ⟨hspace, hparts, rfl⟩
    rw [hnil] at hmem
    cases hmem
  | some f =>
    have hmem : f ∈ pattern.fits s.toList := List.mem_of_mem_head? hfit
    obtain ⟨hspace, hparts, rfl⟩ := mem_fits_pattern_iff.1 hmem
    rw [Option.map_some, parse?_eq_some_iff]
    exact ⟨hspace, hparts, ofKept_keptOf hparts⟩

/-! ## The law -/

/-- A text is read as coordinates exactly if it has no space and its parts between the colons are
grammatical, and then as what they make; any other text is the fault that it is. It is the same to
try the pattern and take the parts that its preferred fit keeps. -/
theorem parse_follows_the_grammar (s : String) :
    (∀ c, parse s = .ok c ↔
      ' ' ∉ s.toList ∧ Grammatical (pieces ':' s.toList) ∧ c = ofParts (pieces ':' s.toList)) ∧
    (∀ fault, parse s = .error fault ↔
      ¬ (' ' ∉ s.toList ∧ Grammatical (pieces ':' s.toList)) ∧ fault = .invalidCoordinates s) ∧
    parse s =
      match pattern.fit? s.toList with
      | some f => .ok (ofKept f.kept)
      | none => .error (.invalidCoordinates s) := by
  refine ⟨fun c => ?_, fun fault => ?_, ?_⟩
  · rw [parse_eq_ok_iff, parse?_eq_some_iff]
  · rw [parse_eq_error_iff, parse?_eq_none_iff]
  · rw [parse, parse?_eq_map_fit?]
    cases pattern.fit? s.toList <;> rfl

end Rollout.Coordinates
