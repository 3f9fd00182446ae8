-- A registry is told by its history: a name and kind stand for the last registration of them that
-- was not forgotten since, and the list of what is registered has each of these in its place. The
-- store in memory answers as this registry does, whatever order its entries stand in.
import Mathlib.Data.List.Induction
import Mathlib.Data.List.Nodup
import Rollout.Artifact.Store

namespace Rollout

open Rollout.Text

variable {history : List RegistryAct} {a : RegistryAct} {entry : Registration}

/-! ## Histories -/

/-- One more act makes a registration, or leaves those standing that it is not about. -/
theorem stands_concat_iff :
    Stands (history ++ [a]) entry ↔
      a = .register entry ∨
        Stands history entry ∧ a.concerns entry.name entry.kind = false := by
  constructor
  · rintro ⟨before, later, hsplit, hlater⟩
    rcases List.eq_nil_or_concat later with rfl | ⟨later, b, rfl⟩
    · obtain ⟨_, hlast⟩ := List.append_inj' hsplit rfl
      cases hlast
      exact Or.inl rfl
    · rw [List.concat_eq_append, ← List.cons_append, ← List.append_assoc] at hsplit
      obtain ⟨rfl, hlast⟩ := List.append_inj' hsplit rfl
      cases hlast
      simp only [List.concat_eq_append, List.forall_mem_append, List.forall_mem_singleton]
        at hlater
      exact Or.inr ⟨⟨before, later, rfl, hlater.1⟩, hlater.2⟩
  · rintro (rfl | ⟨⟨before, later, rfl, hlater⟩, ha⟩)
    · exact ⟨history, [], rfl, by simp⟩
    · refine ⟨before, later ++ [a], by simp, ?_⟩
      rw [List.forall_mem_append, List.forall_mem_singleton]
      exact ⟨hlater, ha⟩

namespace Registry

variable {name : String} {kind : ArtifactKind}

/-! ## One act -/

/-- What is found for a name and kind is registered under them. -/
theorem key_of_find? {r : Registry} (h : r.find? name kind = some entry) :
    entry.name = name ∧ entry.kind = kind := by
  obtain ⟨c, _, rfl⟩ := Option.map_eq_some_iff.1 h
  exact ⟨rfl, rfl⟩

theorem find?_register (r : Registry) (made : Registration) (name : String)
    (kind : ArtifactKind) :
    (r.register made).find? name kind =
      if made.name = name ∧ made.kind = kind then some made else r.find? name kind := by
  unfold find?
  rw [coordinates?_register]
  by_cases h : made.name = name ∧ made.kind = kind
  · obtain ⟨rfl, rfl⟩ := h
    simp
  · rw [if_neg h, if_neg fun h' => h ⟨h'.1.symm, h'.2.symm⟩]

theorem find?_unregister (r : Registry) (name name' : String) (kind kind' : ArtifactKind) :
    (r.unregister name' kind').find? name kind =
      if name' = name ∧ kind' = kind then none else r.find? name kind := by
  unfold find?
  rw [coordinates?_unregister]
  by_cases h : name' = name ∧ kind' = kind
  · obtain ⟨rfl, rfl⟩ := h
    simp
  · rw [if_neg h, if_neg fun h' => h ⟨h'.1.symm, h'.2.symm⟩]

/-- A registration is found after an act if the act makes it, or if it was found before and the act
is not about it. -/
theorem find?_act_eq_some_iff {r : Registry} :
    (r.act a).2.find? name kind = some entry ↔
      (a = .register entry ∧ entry.name = name ∧ entry.kind = kind) ∨
        r.find? name kind = some entry ∧ a.concerns name kind = false := by
  cases a with
  | register made =>
    show (r.replace made).2.find? name kind = some entry ↔ _
    rw [replace_eq, find?_register]
    by_cases h : made.name = name ∧ made.kind = kind
    · obtain ⟨rfl, rfl⟩ := h
      simp only [and_self, if_true, Option.some.injEq, RegistryAct.register.injEq,
        RegistryAct.concerns, decide_true, Bool.true_eq_false, and_false, or_false]
      constructor
      · rintro rfl
        exact ⟨rfl, rfl, rfl⟩
      · exact fun h => h.1
    · simp only [h, if_false, RegistryAct.register.injEq, RegistryAct.concerns, decide_false,
        and_true]
      refine ⟨Or.inr, ?_⟩
      rintro (⟨rfl, hkey⟩ | hfound)
      · exact absurd hkey h
      · exact hfound
  | unregister name' kind' =>
    show (r.remove name' kind').2.find? name kind = some entry ↔ _
    rw [remove_eq, find?_unregister]
    by_cases h : name' = name ∧ kind' = kind <;> simp [h, RegistryAct.concerns]
  | clear =>
    have hnone : (∅ : Registry).find? name kind = none := rfl
    show (∅ : Registry).find? name kind = some entry ↔ _
    simp [hnone, RegistryAct.concerns]

/-! ## A history -/

theorem after_concat (history : List RegistryAct) (a : RegistryAct) :
    after (history ++ [a]) = ((after history).act a).2 := by
  unfold after
  rw [List.foldl_append]
  rfl

/-- What a history leaves registered under a name and kind is the registration of these that
stands. -/
theorem find?_after_eq_some_iff :
    (after history).find? name kind = some entry ↔
      Stands history entry ∧ entry.name = name ∧ entry.kind = kind := by
  induction history using List.reverseRecOn with
  | nil =>
    constructor
    · intro h
      cases h
    · rintro ⟨⟨before, later, hsplit, _⟩, _⟩
      simp at hsplit
  | append_singleton history a ih =>
    rw [after_concat, find?_act_eq_some_iff, ih, stands_concat_iff, or_and_right]
    refine or_congr Iff.rfl ?_
    constructor
    · rintro ⟨⟨hstands, rfl, rfl⟩, ha⟩
      exact ⟨⟨hstands, ha⟩, rfl, rfl⟩
    · rintro ⟨⟨hstands, ha⟩, rfl, rfl⟩
      exact ⟨⟨hstands, rfl, rfl⟩, ha⟩

/-! ## The list -/

/-- Registrations are listed as their keys are ordered. -/
theorem precedes_of_compare {a b : Registration} (h : compare a.key b.key = .lt) :
    a.Precedes b := by
  have h' : (compare a.name b.name).then (compare a.kind b.kind) = .lt := h
  rw [Ordering.then_eq_lt, Std.LawfulEqCmp.compare_eq_iff_eq] at h'
  refine h'.imp bytes_lt_bytes (And.imp_right fun hkind => ?_)
  exact Nat.compare_eq_lt.1 hkind

theorem pairwise_toList (r : Registry) :
    r.toList.Pairwise fun a b => compare a.key b.key = .lt := by
  unfold toList
  rw [List.pairwise_map]
  exact r.entries.sorted

theorem nodup_keys (r : Registry) : (r.toList.map Registration.key).Nodup := by
  refine List.pairwise_map.2 (r.pairwise_toList.imp fun hlt heq => ?_)
  simp [heq] at hlt

theorem list_eq_filter (r : Registry) (kind? : Option ArtifactKind) :
    r.list kind? = r.toList.filter fun entry => kind?.all (entry.kind = ·) := by
  cases kind? with
  | none => exact (List.filter_eq_self.2 fun _ _ => rfl).symm
  | some kind => rfl

theorem list_sublist (r : Registry) (kind? : Option ArtifactKind) :
    (r.list kind?).Sublist r.toList := by
  rw [list_eq_filter]
  exact List.filter_sublist

theorem pairwise_list (r : Registry) (kind? : Option ArtifactKind) :
    (r.list kind?).Pairwise Registration.Precedes :=
  (r.pairwise_toList.imp precedes_of_compare).sublist (r.list_sublist kind?)

theorem mem_toList_iff {r : Registry} :
    entry ∈ r.toList ↔ r.find? entry.name entry.kind = some entry := by
  unfold toList find? coordinates?
  rw [List.mem_map, Option.map_eq_some_iff]
  constructor
  · rintro ⟨⟨⟨name, kind⟩, c⟩, hmem, rfl⟩
    exact ⟨c, SortedMap.get?_eq_some_iff.2 hmem, rfl⟩
  · rintro ⟨c, hc, hentry⟩
    exact ⟨_, SortedMap.get?_eq_some_iff.1 hc, hentry⟩

/-- The list has what is found under some name and kind, and under the kind alone that is asked
for. -/
theorem mem_list_iff {r : Registry} {kind? : Option ArtifactKind} :
    entry ∈ r.list kind? ↔
      (∃ name kind, r.find? name kind = some entry) ∧ ∀ kind ∈ kind?, entry.kind = kind := by
  have hfound : entry ∈ r.toList ↔ ∃ name kind, r.find? name kind = some entry := by
    rw [mem_toList_iff]
    refine ⟨fun h => ⟨_, _, h⟩, ?_⟩
    rintro ⟨name, kind, h⟩
    obtain ⟨rfl, rfl⟩ := key_of_find? h
    exact h
  rw [list_eq_filter, List.mem_filter, hfound]
  cases kind? <;> simp

theorem size_eq_length_list (r : Registry) : r.size = (r.list none).length := by
  unfold size list toList
  rw [List.length_map]
  rfl

end Registry

namespace ArtifactStore

variable {s : ArtifactStore} {r : Registry} {name : String} {kind : ArtifactKind}

/-! ## The store -/

/-- After an act a registration is stored if the act makes it, or if it was stored before and the
act is not about it. -/
theorem find?_act_eq_some_iff :
    (s.act a).2.find? name kind = some entry ↔
      (a = .register entry ∧ entry.name = name ∧ entry.kind = kind) ∨
        s.find? name kind = some entry ∧ a.concerns name kind = false := by
  unfold find?
  rw [get?_eq_some_iff, get?_eq_some_iff]
  cases a with
  | register made =>
    show _ ∈ (made.key, made) :: s.others made.key ↔ _
    rw [List.mem_cons, mem_others]
    refine or_congr ?_ (and_congr_right fun _ => ?_)
    · rw [Prod.mk.injEq, RegistryAct.register.injEq]
      constructor
      · rintro ⟨hkey, rfl⟩
        exact ⟨rfl, Registration.key_eq_iff.1 hkey.symm⟩
      · rintro ⟨rfl, hkey⟩
        exact ⟨(Registration.key_eq_iff.2 hkey).symm, rfl⟩
    · rw [ne_comm, Ne, Registration.key_eq_iff, RegistryAct.concerns, decide_eq_false_iff_not]
  | unregister name' kind' =>
    show _ ∈ s.others ⟨name', kind'⟩ ↔ _
    rw [mem_others]
    simp [RegistryAct.concerns, @eq_comm _ name', @eq_comm _ kind']
  | clear =>
    show _ ∈ [] ↔ _
    simp [RegistryAct.concerns]

theorem after_concat (history : List RegistryAct) (a : RegistryAct) :
    after (history ++ [a]) = ((after history).act a).2 := by
  unfold after
  rw [List.foldl_append]
  rfl

/-- A store finds what a registry of the same history finds. -/
theorem find?_after (history : List RegistryAct) (name : String) (kind : ArtifactKind) :
    (after history).find? name kind = (Registry.after history).find? name kind := by
  induction history using List.reverseRecOn generalizing name kind with
  | nil => rfl
  | append_singleton history a ih =>
    refine Option.ext fun entry => ?_
    rw [after_concat, Registry.after_concat, find?_act_eq_some_iff,
      Registry.find?_act_eq_some_iff, ih]

/-- Sorting undoes every change of the order of a registry's list. -/
theorem sorted_eq_list {values : List Registration} (h : values.Perm r.toList)
    (kind? : Option ArtifactKind) : sorted kind? values = r.list kind? := by
  have hperm : (sorted kind? values).Perm (r.list kind?) := by
    rw [r.list_eq_filter]
    exact (List.mergeSort_perm _ _).trans (h.filter _)
  refine List.Perm.eq_of_pairwise (fun a b ha hb hab hba => ?_)
    (List.pairwise_mergeSort (fun _ _ _ => Std.TransCmp.isLE_trans) (fun a b => ?_) _)
    ((r.pairwise_toList.imp Ordering.isLE_of_eq_lt).sublist (r.list_sublist kind?)) hperm
  · -- No other registration of the registry has the key.
    refine List.inj_on_of_nodup_map r.nodup_keys ((r.list_sublist kind?).subset (hperm.subset ha))
      ((r.list_sublist kind?).subset hb) ?_
    exact Std.LawfulEqCmp.eq_of_compare (Std.OrientedCmp.isLE_antisymm hab hba)
  · have hswap : compare b.key a.key = (compare a.key b.key).swap := Std.OrientedOrd.eq_swap
    rw [hswap]
    cases compare a.key b.key <;> rfl

theorem ofList_eq {values : List Registration} (h : values.Perm r.toList) :
    Registry.ofList values = r := by
  have hentries : (Registry.ofList values).entries =
      SortedMap.ofList (values.map fun entry => (entry.key, entry.coordinates)) := by
    unfold SortedMap.ofList SortedMap.insertAll Registry.ofList
    rw [List.foldl_map]
    exact (List.foldl_hom Registry.entries fun _ _ => rfl).symm
  have hmem : ∀ e, e ∈ values.map (fun entry => (entry.key, entry.coordinates)) ↔
      e ∈ r.entries.toList := by
    intro e
    rw [(h.map _).mem_iff, Registry.toList, List.map_map]
    exact Iff.of_eq (congrArg (e ∈ ·) (List.map_id _))
  have hsame : (Registry.ofList values).entries = r.entries :=
    hentries.trans (SortedMap.ofList_of_mem_iff hmem)
  cases r
  exact congrArg Registry.mk hsame

/-- If a store finds what a registry finds, it keeps the registry. -/
theorem keeps_of_find? (h : ∀ name kind, s.find? name kind = r.find? name kind) : s.Keeps r := by
  have hperm : s.values.Perm r.toList := by
    have hnodup : r.toList.Nodup := List.Nodup.of_map _ r.nodup_keys
    refine (List.perm_ext_iff_of_nodup s.nodup_values hnodup).2 fun entry => ?_
    rw [mem_values_iff, Registry.mem_toList_iff, h]
  have hsize : s.entries.length = r.entries.toList.length := by
    simpa [values, Registry.toList] using hperm.length_eq
  refine ⟨h, fun a => ?_, fun values hvalues => sorted_eq_list (hvalues.trans hperm),
    fun values hvalues => ofList_eq (hvalues.trans hperm), hsize, ?_⟩
  · cases a with
    | register made =>
      show s.find? made.name made.kind = (r.replace made).1
      rw [r.replace_eq, h]
    | unregister name kind =>
      show s.find? name kind = (r.remove name kind).1
      rw [r.remove_eq, h]
    | clear => rfl
  · show s.entries.isEmpty = r.entries.toList.isEmpty
    rw [Bool.eq_iff_iff, List.isEmpty_iff_length_eq_zero, List.isEmpty_iff_length_eq_zero, hsize]

theorem keeps_after (history : List RegistryAct) :
    (after history).Keeps (Registry.after history) :=
  keeps_of_find? (find?_after history)

end ArtifactStore

namespace Registry

/-! ## The law -/

/-- A registry is what its history makes it. A name and kind stand for the last registration of
them, if neither they nor everything was forgotten since, and else for nothing. Registering and
unregistering give what was found for the name and kind before. What is found is listed, all of it
or what is of one kind, in the order of the bytes of the names and then of the kinds, and the size
is the length of the list of all. A store that the same is done to keeps the registry. -/
theorem last_registration_stands (history : List RegistryAct) :
    let r := after history
    (∀ name kind entry, r.find? name kind = some entry ↔
      Stands history entry ∧ entry.name = name ∧ entry.kind = kind) ∧
    (∀ entry, (r.act (.register entry)).1 = r.find? entry.name entry.kind) ∧
    (∀ name kind, (r.act (.unregister name kind)).1 = r.find? name kind) ∧
    (∀ kind?, (r.list kind?).Pairwise Registration.Precedes) ∧
    (∀ kind? entry, entry ∈ r.list kind? ↔
      (∃ name kind, r.find? name kind = some entry) ∧ ∀ kind ∈ kind?, entry.kind = kind) ∧
    r.size = (r.list none).length ∧
    (ArtifactStore.after history).Keeps r := by
  intro r
  refine ⟨fun name kind entry => find?_after_eq_some_iff, fun entry => ?_, fun name kind => ?_,
    r.pairwise_list, fun kind? entry => mem_list_iff, r.size_eq_length_list,
    ArtifactStore.keeps_after history⟩
  · exact congrArg Prod.fst (r.replace_eq entry)
  · exact congrArg Prod.fst (r.remove_eq name kind)

end Registry

end Rollout
