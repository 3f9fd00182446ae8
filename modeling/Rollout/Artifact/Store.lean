-- The store of the registrations in memory. Every registration is stored whole, under the name and
-- kind it has, and the entries stand in no order that counts: a list of them is sorted when it is
-- asked for.
import Rollout.Artifact.History

namespace Rollout

/-- What a registration is stored under. -/
def Registration.key (entry : Registration) : ArtifactKey := ⟨entry.name, entry.kind⟩

theorem Registration.key_eq_iff {entry : Registration} {name : String} {kind : ArtifactKind} :
    entry.key = ⟨name, kind⟩ ↔ entry.name = name ∧ entry.kind = kind := by
  simp [key]

/-- Registrations under different keys, each under its own. -/
structure ArtifactStore where
  entries : List (ArtifactKey × Registration)
  distinct : entries.Pairwise fun a b => a.1 ≠ b.1
  keyed : ∀ e ∈ entries, e.2.key = e.1

namespace ArtifactStore

def empty : ArtifactStore := ⟨[], List.Pairwise.nil, by simp⟩

instance : EmptyCollection ArtifactStore := ⟨empty⟩

instance : Inhabited ArtifactStore := ⟨empty⟩

/-! ## Operations -/

variable (s : ArtifactStore)

/-- What is stored under a key. -/
def get? (key : ArtifactKey) : Option Registration :=
  (s.entries.find? (·.1 = key)).map (·.2)

def find? (name : String) (kind : ArtifactKind) : Option Registration := s.get? ⟨name, kind⟩

/-- The entries of all other keys. -/
def others (key : ArtifactKey) : List (ArtifactKey × Registration) :=
  s.entries.filter (·.1 ≠ key)

theorem mem_others {key : ArtifactKey} {e : ArtifactKey × Registration} :
    e ∈ s.others key ↔ e ∈ s.entries ∧ e.1 ≠ key := by
  simp [others]

/-- Stores a registration, and gives the one that it takes the place of. -/
def put (entry : Registration) : Option Registration × ArtifactStore :=
  (s.get? entry.key,
    { entries := (entry.key, entry) :: s.others entry.key
      distinct := List.pairwise_cons.2
        ⟨fun _ he => ((s.mem_others.1 he).2).symm, s.distinct.filter _⟩
      keyed := List.forall_mem_cons.2
        ⟨rfl, fun e he => s.keyed e (s.mem_others.1 he).1⟩ })

/-- Takes out what is stored under a key, and gives it. -/
def take (key : ArtifactKey) : Option Registration × ArtifactStore :=
  (s.get? key,
    { entries := s.others key
      distinct := s.distinct.filter _
      keyed := fun e he => s.keyed e (s.mem_others.1 he).1 })

/-- Does an act. One that is about a name and kind gives what was stored under them. -/
def act : RegistryAct → Option Registration × ArtifactStore
  | .register entry => s.put entry
  | .unregister name kind => s.take ⟨name, kind⟩
  | .clear => (none, ∅)

/-- What a history makes of a store that is empty at first. -/
def after (history : List RegistryAct) : ArtifactStore :=
  history.foldl (fun s a => (s.act a).2) ∅

def values : List Registration := s.entries.map (·.2)

def size : Nat := s.entries.length

def isEmpty : Bool := s.entries.isEmpty

/-- Sorts registrations by name and then by kind, those of one kind if one is given. -/
def sorted (kind? : Option ArtifactKind) (values : List Registration) : List Registration :=
  (values.filter fun entry => kind?.all (entry.kind = ·)).mergeSort
    fun a b => (compare a.key b.key).isLE

def list (kind? : Option ArtifactKind) : List Registration := sorted kind? s.values

/-- A store keeps a registry: both answer alike, in whatever order the store goes through what is
in it. -/
structure Keeps (r : Registry) : Prop where
  find : ∀ name kind, s.find? name kind = r.find? name kind
  answer : ∀ a, (s.act a).1 = (r.act a).1
  list : ∀ values, values.Perm s.values → ∀ kind?, sorted kind? values = r.list kind?
  registry : ∀ values, values.Perm s.values → Registry.ofList values = r
  size : s.size = r.size
  isEmpty : s.isEmpty = r.isEmpty

/-! ## Laws -/

variable {s : ArtifactStore} {entry : Registration}

/-- Where keys are different, a search for a key finds the entry that has it. -/
theorem find?_key_eq_some_iff {entries : List (ArtifactKey × Registration)} {key : ArtifactKey}
    {e : ArtifactKey × Registration} (h : entries.Pairwise fun a b => a.1 ≠ b.1) :
    entries.find? (·.1 = key) = some e ↔ e ∈ entries ∧ e.1 = key := by
  induction entries with
  | nil => simp
  | cons a rest ih =>
    rw [List.pairwise_cons] at h
    by_cases ha : a.1 = key
    · have hrest : ∀ b ∈ rest, b.1 ≠ key := fun b hb hkey => h.1 b hb (ha.trans hkey.symm)
      rw [List.find?_cons_of_pos (by simpa using ha), Option.some.injEq, List.mem_cons]
      constructor
      · rintro rfl
        exact ⟨Or.inl rfl, ha⟩
      · rintro ⟨rfl | he, hkey⟩
        · rfl
        · exact absurd hkey (hrest e he)
    · rw [List.find?_cons_of_neg (by simpa using ha), ih h.2, List.mem_cons]
      constructor
      · exact fun he => ⟨Or.inr he.1, he.2⟩
      · rintro ⟨rfl | he, hkey⟩
        · exact absurd hkey ha
        · exact ⟨he, hkey⟩

theorem get?_eq_some_iff {key : ArtifactKey} :
    s.get? key = some entry ↔ (key, entry) ∈ s.entries := by
  unfold get?
  rw [Option.map_eq_some_iff]
  constructor
  · rintro ⟨⟨key', _⟩, hfound, rfl⟩
    obtain ⟨he, rfl⟩ := (find?_key_eq_some_iff s.distinct).1 hfound
    exact he
  · intro he
    exact ⟨(key, entry), (find?_key_eq_some_iff s.distinct).2 ⟨he, rfl⟩, rfl⟩

/-- What is stored is found under its own name and kind. -/
theorem mem_values_iff : entry ∈ s.values ↔ s.find? entry.name entry.kind = some entry := by
  unfold values find?
  rw [get?_eq_some_iff, List.mem_map]
  constructor
  · rintro ⟨e, he, rfl⟩
    show (e.2.key, e.2) ∈ s.entries
    rw [s.keyed e he]
    exact he
  · exact fun he => ⟨_, he, rfl⟩

theorem nodup_values (s : ArtifactStore) : s.values.Nodup := by
  unfold values
  refine List.pairwise_map.2 (s.distinct.imp_of_mem fun ha hb hne heq => hne ?_)
  rw [← s.keyed _ ha, ← s.keyed _ hb, heq]

end ArtifactStore

end Rollout
