import Codeflux.Storage.Memory.Lineage

/-!
# Independent confirmation

An episode confirms an artifact independently if it supported no artifact of the same lineage. The
domain's check leaves out what has no entry in the index, which are the roots of the ancestry, and
never looks at what derives from the artifact.
-/

namespace Codeflux.Storage.MemoryStore

open Library Domain

variable {store : MemoryStore} {projectID : ProjectID} {artifact : MemoryArtifactID}

/-- The artifact with everything that it transitively derives from or is influenced by. -/
def Family (store : MemoryStore) : MemoryArtifactID → MemoryArtifactID → Prop :=
  Relation.ReflTransGen fun x y => store.DerivesFrom x y ∨ store.InfluencedBy x y

/-- The lineage of an artifact: its family, and what transitively derives from it. -/
def InLineage (store : MemoryStore) (artifact id : MemoryArtifactID) : Prop :=
  store.Family artifact id ∨ store.Descends artifact id

variable {id : MemoryArtifactID}

theorem Family.project (hsound : store.Sound)
    (h : store.Family artifact id) (hproject : store.projectOf artifact = some projectID) :
    store.projectOf id = some projectID := by
  induction h with
  | refl => exact hproject
  | tail _ hedge ih =>
    obtain ⟨row, hrow, rfl, rfl⟩ | ⟨row, hrow, rfl, rfl⟩ := hedge
    · obtain ⟨project, hartifact, hancestor⟩ := hsound.derived row hrow
      exact hancestor.trans (hartifact.symm.trans ih)
    · obtain ⟨project, hartifact, hancestor⟩ := hsound.influenced row hrow
      exact hancestor.trans (hartifact.symm.trans ih)

/-- Within its project, an artifact reaches in the index what it reaches in the tables. -/
theorem reach_load_iff (hsound : store.Sound)
    (hproject : store.projectOf artifact = some projectID) :
    (ancestry (store.loadMemoryArtifactLineageIndex projectID)).Reach artifact id ↔
      store.Family artifact id := by
  have hnext : ∀ x y, y ∈ (ancestry (store.loadMemoryArtifactLineageIndex projectID)).next x ↔
      store.projectOf x = some projectID ∧ (store.DerivesFrom x y ∨ store.InfluencedBy x y) := by
    intro x y
    show y ∈ _ ++ _ ↔ _
    rw [List.mem_append, mem_derivedFrom_load_iff, mem_influencedBy_load_iff, ← and_or_left]
  constructor
  · intro h
    exact Relation.ReflTransGen.mono (fun x y hxy => ((hnext x y).1 hxy).2) artifact id h
  · intro h
    induction h with
    | refl => exact .refl
    | tail hfamily hedge ih =>
      exact ih.tail ((hnext _ _).2 ⟨Family.project hsound hfamily hproject, hedge⟩)

/-- The check takes for exposed the episodes of the family's members that have an edge of their
own. -/
theorem seenExposed_load_iff (hsound : store.Sound)
    (hproject : store.projectOf artifact = some projectID) {episode : EpisodeID} :
    SeenExposed (store.loadMemoryArtifactLineageIndex projectID) artifact episode ↔
      ∃ id, store.Family artifact id ∧ store.HasAncestor id ∧ store.Supports episode id := by
  constructor
  · rintro ⟨id, lineage, hreach, hlookup, hepisode⟩
    have hindexed : id ∈ store.loadMemoryArtifactLineageIndex projectID :=
      AList.lookup_isSome.1 (by rw [hlookup]; rfl)
    exact ⟨id, (reach_load_iff hsound hproject).1 hreach, (mem_load_iff.1 hindexed).2,
      ((known_finalize hlookup).2 episode).1 hepisode⟩
  · rintro ⟨id, hfamily, hancestor, hsupports⟩
    have hindexed : id ∈ store.loadMemoryArtifactLineageIndex projectID :=
      mem_load_iff.2 ⟨Family.project hsound hfamily hproject, hancestor⟩
    obtain ⟨lineage, hlookup⟩ := Option.isSome_iff_exists.1 (AList.lookup_isSome.2 hindexed)
    exact ⟨id, lineage, (reach_load_iff hsound hproject).2 hfamily, hlookup,
      ((known_finalize hlookup).2 episode).2 hsupports⟩

/-- **When the answer of the check can be relied on.** Every answer of `true` for the artifact, over
all lists of candidates, is about an episode outside its lineage exactly when each episode of the
lineage also supported a member of the family that has an edge of its own. -/
theorem independent_confirmation_iff (store : MemoryStore) (hsound : store.Sound)
    (projectID : ProjectID) (artifact : MemoryArtifactID) :
    (∀ candidates, confirmsMemoryArtifactIndependently artifact
        (store.loadMemoryArtifactLineageIndex projectID) candidates = .ok true →
      ∃ episode ∈ candidates, ∀ id, store.InLineage artifact id → ¬store.Supports episode id) ↔
    (store.projectOf artifact = some projectID → store.HasAncestor artifact →
      ∀ episode id, store.InLineage artifact id → store.Supports episode id →
        ∃ member, store.Family artifact member ∧ store.HasAncestor member ∧
          store.Supports episode member) := by
  constructor
  · intro hconfirms hproject hancestor episode id hlineage hsupports
    by_contra hunseen
    rw [← seenExposed_load_iff hsound hproject] at hunseen
    obtain ⟨row, hrow, hartifact, hepisode⟩ := hsupports
    have hzero : episode.isZero = false := hepisode ▸ hsound.episodes row hrow
    have htrue := confirms_singleton filed_load (fun _ _ h => (known_finalize h).1)
      (mem_load_iff.2 ⟨hproject, hancestor⟩) hzero hunseen
    obtain ⟨e, he, hfree⟩ := hconfirms [episode] htrue
    obtain rfl := List.mem_singleton.1 he
    exact hfree id hlineage ⟨row, hrow, hartifact, hepisode⟩
  · intro hseen candidates htrue
    obtain ⟨hindexed, episode, hmem, hunseen⟩ := confirms_true filed_load htrue
    obtain ⟨hproject, hancestor⟩ := mem_load_iff.1 hindexed
    rw [seenExposed_load_iff hsound hproject] at hunseen
    exact ⟨episode, hmem, fun id hlineage hsupports =>
      hunseen (hseen hproject hancestor episode id hlineage hsupports)⟩

/-- The root has no entry in the index, so its episode is taken for independent confirmation. -/
theorem root_episode_confirms :
    rootedLesson.Sound ∧
      confirmsMemoryArtifactIndependently sampleLessonID
        (rootedLesson.loadMemoryArtifactLineageIndex sampleProjectID) [sampleEpisodeID] =
          .ok true ∧
      rootedLesson.InLineage sampleLessonID sampleRootID ∧
      rootedLesson.Supports sampleEpisodeID sampleRootID := by
  have hderives : rootedLesson.DerivesFrom sampleLessonID sampleRootID :=
    ⟨_, List.mem_cons_self, rfl, rfl⟩
  exact ⟨rootedLesson_sound, by decide +kernel, .inl (.single (.inl hderives)),
    ⟨_, List.mem_cons_self, rfl, rfl⟩⟩

/-- The same store after the episode is recorded for the lesson as well. -/
def exposedLesson : MemoryStore :=
  { rootedLesson with
    supportingEpisodes := {
      rows := [⟨sampleRootID, sampleEpisodeID, 0⟩, ⟨sampleLessonID, sampleEpisodeID, 1⟩]
      checked := by decide
      distinct := by decide } }

theorem exposedLesson_episodes :
    ∀ row ∈ exposedLesson.supportingEpisodes.rows, row.episodeID = sampleEpisodeID := by
  decide

theorem exposedLesson_sound : exposedLesson.Sound :=
  { rootedLesson_sound with
    episodes := fun row hrow => by
      rw [exposedLesson_episodes row hrow]
      decide }

theorem exposedLesson_confirmation :
    exposedLesson.Sound ∧
      ∀ candidates, confirmsMemoryArtifactIndependently sampleLessonID
          (exposedLesson.loadMemoryArtifactLineageIndex sampleProjectID) candidates = .ok true →
        ∃ episode ∈ candidates, ∀ id, exposedLesson.InLineage sampleLessonID id →
          ¬exposedLesson.Supports episode id := by
  refine ⟨exposedLesson_sound, (independent_confirmation_iff exposedLesson exposedLesson_sound
    sampleProjectID sampleLessonID).2 ?_⟩
  rintro - hancestor episode id - ⟨row, hrow, -, rfl⟩
  refine ⟨sampleLessonID, .refl, hancestor, ⟨sampleLessonID, sampleEpisodeID, 1⟩, ?_, rfl, ?_⟩
  · exact List.mem_cons_of_mem _ List.mem_cons_self
  · exact (exposedLesson_episodes row hrow).symm

end Codeflux.Storage.MemoryStore
