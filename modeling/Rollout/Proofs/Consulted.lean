-- What planning asks the registry. It asks for the artifact of each stage that has a role, under
-- the kind of that role, and for each library in a list that is not given by coordinates. Two
-- registries that say the same of these have the same plans and the same faults, whatever else
-- they know.
import Rollout.Proofs.Replanning

namespace Rollout

/-- Planning asks the registry for an entry on behalf of a stage: it is the artifact that fills the
role of the stage, or a library that the stage lists by what are no coordinates. -/
def Stage.Consults (config : Config) (s : Stage) (name : String) (kind : ArtifactKind) : Prop :=
  (∃ role, s.role = .ok role ∧ name = s.name ∧ kind = role.kind) ∨
  (kind = .library ∧ Coordinates.parse? name = none ∧
    ∃ list, s.parameter? config.includesParameter = some list ∧ name ∈ Includes.tokens list)

/-- Planning asks the registry for an entry on behalf of some stage of a pipeline. -/
def Pipeline.Consults (p : Pipeline) (config : Config) (name : String) (kind : ArtifactKind) :
    Prop :=
  ∃ s ∈ p.stages, s.Consults config name kind

/-! ## Registries that agree -/

namespace Registry

/-- Two registries say the same of the given entries. -/
def AgreeOn (asked : String → ArtifactKind → Prop) (r r' : Registry) : Prop :=
  ∀ name kind, asked name kind → r.coordinates? name kind = r'.coordinates? name kind

variable {asked : String → ArtifactKind → Prop} {r r' r'' : Registry}

theorem AgreeOn.trans (h : AgreeOn asked r r') (h' : AgreeOn asked r' r'') :
    AgreeOn asked r r'' :=
  fun name kind hasked => (h name kind hasked).trans (h' name kind hasked)

theorem AgreeOn.mono {asked' : String → ArtifactKind → Prop} (h : AgreeOn asked r r')
    (hsub : ∀ name kind, asked' name kind → asked name kind) : AgreeOn asked' r r' :=
  fun name kind hasked => h name kind (hsub name kind hasked)

theorem agreeOn_register {entry : Registration} (h : ¬ asked entry.name entry.kind)
    (r : Registry) : AgreeOn asked (r.register entry) r := by
  intro name kind hasked
  rw [coordinates?_register, if_neg]
  rintro ⟨rfl, rfl⟩
  exact h hasked

theorem agreeOn_unregister {name : String} {kind : ArtifactKind} (h : ¬ asked name kind)
    (r : Registry) : AgreeOn asked (r.unregister name kind) r := by
  intro name' kind' hasked
  rw [coordinates?_unregister, if_neg]
  rintro ⟨rfl, rfl⟩
  exact h hasked

theorem resolveLibrary_congr {token : String}
    (h : Coordinates.parse? token = none →
      r.coordinates? token .library = r'.coordinates? token .library) :
    r.resolveLibrary token = r'.resolveLibrary token := by
  unfold resolveLibrary
  cases hparse : Coordinates.parse? token with
  | some c => rfl
  | none => rw [h hparse]

end Registry

theorem Includes.resolve_congr {r r' : Registry} {list : String}
    (h : ∀ token ∈ tokens list, Coordinates.parse? token = none →
      r.coordinates? token .library = r'.coordinates? token .library) :
    resolve r list = resolve r' list := by
  have hplaces : (tokens list).mapM r.resolveLibrary =
      (tokens list).mapM r'.resolveLibrary :=
    Traversal.mapM_congr fun token htoken => Registry.resolveLibrary_congr (h token htoken)
  unfold resolve
  rw [hplaces]

/-! ## Planning -/

namespace Planning

variable {config : Config} {r r' : Registry} {s : Stage}

theorem place_congr (h : Registry.AgreeOn (s.Consults config) r r') :
    place r s = place r' s := by
  unfold place
  cases hrole : s.role with
  | error fault => rfl
  | ok role =>
    have hartifact := h s.name role.kind (Or.inl ⟨role, hrole, rfl, rfl⟩)
    show (r.resolve s.name role >>= _) = (r'.resolve s.name role >>= _)
    unfold Registry.resolve
    rw [hartifact]

theorem settleIncludes_congr (h : Registry.AgreeOn (s.Consults config) r r') :
    settleIncludes r config s = settleIncludes r' config s := by
  unfold settleIncludes
  cases hlist : s.parameter? config.includesParameter with
  | none => rfl
  | some list =>
    have hsame : Includes.resolve r list = Includes.resolve r' list :=
      Includes.resolve_congr fun token htoken hname =>
        h token .library (Or.inr ⟨rfl, hname, list, hlist, htoken⟩)
    show (Includes.resolve r list).map _ = (Includes.resolve r' list).map _
    rw [hsame]

/-- Planning sees no more of the registry than what it asks for on behalf of the stages. -/
theorem instructions_congr {stages : List Stage}
    (h : ∀ s ∈ stages, Registry.AgreeOn (s.Consults config) r r') (overrides : Properties) :
    instructions r config overrides stages = instructions r' config overrides stages := by
  have hplaces : stages.mapM (place r) = stages.mapM (place r') :=
    Traversal.mapM_congr fun s hs => place_congr (h s hs)
  have hsettled : stages.mapM (settleIncludes r config) =
      stages.mapM (settleIncludes r' config) :=
    Traversal.mapM_congr fun s hs => settleIncludes_congr (h s hs)
  unfold instructions
  rw [hplaces, hsettled]

end Planning

namespace Pipeline

variable {p : Pipeline} {config : Config}

theorem plan_congr {r r' : Registry} (h : Registry.AgreeOn (p.Consults config) r r')
    (overrides : Properties) (id : PlanId) :
    p.plan r config overrides id = p.plan r' config overrides id := by
  have hstages : ∀ s ∈ p.deployOrder, Registry.AgreeOn (s.Consults config) r r' :=
    fun s hs => h.mono fun _ _ hasked => ⟨s, List.mem_reverse.1 hs, hasked⟩
  unfold plan instructions
  rw [Planning.instructions_congr hstages]

/-- The number of a plan has no part in its instructions or in the fault. -/
theorem map_instructions_plan (r : Registry) (overrides : Properties) (id : PlanId) :
    (p.plan r config overrides id).map Plan.instructions = p.instructions r config overrides := by
  unfold plan
  cases p.instructions r config overrides <;> rfl

/-! ## What is not asked for -/

/-- What stands for coordinates is never looked up. -/
theorem not_consults_of_parse? {name : String} (h : Coordinates.parse? name ≠ none) :
    ¬ p.Consults config name .library := by
  rintro ⟨s, _, ⟨role, _, _, hkind⟩ | ⟨_, hname, _⟩⟩
  · exact role.kind_ne_library hkind.symm
  · exact h hname

/-- A library that no stage lists is not looked up, though a stage may have its name. -/
theorem not_consults_of_unlisted {name : String}
    (h : ∀ s ∈ p.stages, ∀ list, s.parameter? config.includesParameter = some list →
      name ∉ Includes.tokens list) : ¬ p.Consults config name .library := by
  rintro ⟨s, hs, ⟨role, _, _, hkind⟩ | ⟨_, _, list, hlist, htoken⟩⟩
  · exact role.kind_ne_library hkind.symm
  · exact h s hs list hlist htoken

/-- An artifact that is no library is not looked up unless it fills the role of a stage that has
its name. -/
theorem not_consults_of_role_ne {name : String} {kind : ArtifactKind} (hkind : kind ≠ .library)
    (h : ∀ s ∈ p.stages, ∀ role, s.name = name → s.role = .ok role → role.kind ≠ kind) :
    ¬ p.Consults config name kind := by
  rintro ⟨s, hs, ⟨role, hrole, rfl, rfl⟩ | ⟨hlibrary, _⟩⟩
  · exact h s hs role rfl hrole rfl
  · exact hkind hlibrary

/-! ## The law -/

/-- Only the entries that planning asks for have a part in a plan or in the fault of planning. No
other entry has one, be it registered, put in the place of another or forgotten: not a library
that is named by coordinates, not one that no stage lists, and no artifact under a kind that fills
the role of no stage of its name. -/
theorem only_consulted_entries_count (p : Pipeline) (config : Config) :
    (∀ r r' : Registry, Registry.AgreeOn (p.Consults config) r r' → ∀ overrides id id',
      (p.plan r config overrides id).map Plan.instructions =
        (p.plan r' config overrides id').map Plan.instructions) ∧
    (∀ entry : Registration, ¬ p.Consults config entry.name entry.kind → ∀ r overrides id,
      p.plan (r.register entry) config overrides id = p.plan r config overrides id ∧
      p.plan (r.unregister entry.name entry.kind) config overrides id =
        p.plan r config overrides id) ∧
    (∀ name, Coordinates.parse? name ≠ none → ¬ p.Consults config name .library) ∧
    (∀ name, (∀ s ∈ p.stages, ∀ list, s.parameter? config.includesParameter = some list →
      name ∉ Includes.tokens list) → ¬ p.Consults config name .library) ∧
    ∀ name kind, kind ≠ .library →
      (∀ s ∈ p.stages, ∀ role, s.name = name → s.role = .ok role → role.kind ≠ kind) →
        ¬ p.Consults config name kind := by
  refine ⟨?_, ?_, fun _ => not_consults_of_parse?, fun _ => not_consults_of_unlisted,
    fun _ _ => not_consults_of_role_ne⟩
  · intro r r' h overrides id id'
    rw [plan_congr h, map_instructions_plan, map_instructions_plan]
  · intro entry hentry r overrides id
    exact ⟨plan_congr (Registry.agreeOn_register hentry r) overrides id,
      plan_congr (Registry.agreeOn_unregister hentry r) overrides id⟩

/-- Entries that planning the listed stages does not ask for: a library with the name of a stage,
a stage under a kind that is not of its role, and a library under what are coordinates. -/
def crowdingEntries : List Registration :=
  [⟨"time", .library, .plain "org.example" "clock" "9"⟩,
    ⟨"log", .source, .plain "org.example" "replay" "9"⟩,
    ⟨"com.acme:util::2.0", .library, .plain "org.example" "shadow" "9"⟩]

theorem crowding_entries_do_not_count :
    ∃ (p : Pipeline) (made made' : Plan),
      build "line" "time | log" listedStages = .ok p ∧
      (∀ entry ∈ crowdingEntries, ¬ p.Consults {} entry.name entry.kind) ∧
      p.plan boundRegistry {} ∅ ⟨0⟩ = .ok made ∧
      p.plan (crowdingEntries.foldl Registry.register boundRegistry) {} ∅ ⟨1⟩ = .ok made' ∧
      made'.instructions = made.instructions ∧
      p.plan (boundRegistry.unregister "log" .source) {} ∅ ⟨0⟩ = .ok made := by
  have hrun : ((build "line" "time | log" listedStages).toOption.bind fun p =>
      (p.plan boundRegistry {} ∅ ⟨0⟩).toOption.bind fun made =>
      (p.plan (crowdingEntries.foldl Registry.register boundRegistry) {} ∅ ⟨1⟩).toOption.map
        fun _ => decide (∀ s ∈ p.stages,
          (∀ list ∈ s.parameter? Key.includes, "time" ∉ Includes.tokens list) ∧
            (s.name = "log" → s.role.toOption = some .sink))) = some true := by
    decide +kernel
  simp only [Option.bind_eq_some_iff, Option.map_eq_some_iff, Traversal.toOption_eq_some_iff,
    decide_eq_true_eq] at hrun
  obtain ⟨p, hp, made, hmade, made', hmade', hstages⟩ := hrun
  obtain ⟨hagree, hentry, hparsed, hunlisted, hrole⟩ := only_consulted_entries_count p {}
  have htime : ¬ p.Consults {} "time" .library :=
    hunlisted "time" fun s hs list hlist => (hstages s hs).1 list hlist
  have hlog : ¬ p.Consults {} "log" .source := by
    refine hrole "log" .source (by decide) fun s hs role hname hsrole => ?_
    rw [(hstages s hs).2 hname] at hsrole
    cases hsrole
    decide
  have hliteral : ¬ p.Consults {} "com.acme:util::2.0" .library :=
    hparsed "com.acme:util::2.0" (by decide +kernel)
  have hcrowd : Registry.AgreeOn (p.Consults {})
      (crowdingEntries.foldl Registry.register boundRegistry) boundRegistry :=
    (Registry.agreeOn_register hliteral _).trans
      ((Registry.agreeOn_register hlog _).trans (Registry.agreeOn_register htime _))
  refine ⟨p, made, made', hp, ?_, hmade, hmade', ?_, ?_⟩
  · intro entry hmem
    simp only [crowdingEntries, List.mem_cons, List.not_mem_nil, or_false] at hmem
    rcases hmem with rfl | rfl | rfl
    · exact htime
    · exact hlog
    · exact hliteral
  · have hsame := hagree _ _ hcrowd ∅ ⟨1⟩ ⟨0⟩
    rw [hmade, hmade'] at hsame
    exact Except.ok.inj hsame
  · rw [← hmade]
    exact (hentry ⟨"log", .source, .plain "org.example" "replay" "9"⟩ hlog boundRegistry ∅ ⟨0⟩).2

end Pipeline

end Rollout
