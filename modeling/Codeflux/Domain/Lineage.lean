import Codeflux.Domain.Identity
import Codeflux.Library.FinDigraph
import Codeflux.Library.Assembly
import Mathlib.Data.String.Basic

/-!
# Influence lineage of memory artifacts

An artifact derives from others, or was made in their context. The domain works on an index from
artifacts to their direct ancestors and to the episodes that exposed them. A map of the source is an
association list without duplicate keys; where the order of a range does not matter the model takes
the list's.
-/

namespace Codeflux.Domain

open Library List

/-- The episodes are not known. -/
def errMemoryArtifactExposureUnknown : Failure :=
  .new "memory artifact supporting-episode exposure is not known"

/-- The direct ancestry of an artifact, with the episodes that exposed it. -/
structure MemoryArtifactLineage where
  artifactID : MemoryArtifactID
  (derivedFrom influencedBy : List MemoryArtifactID)
  supportingEpisodes : List EpisodeID
  supportingEpisodesKnown : Bool

/-- Lineages by artifact. -/
abbrev LineageIndex := AList fun _ : MemoryArtifactID => MemoryArtifactLineage

namespace LineageIndex

variable (index : LineageIndex)

/-- What an artifact derives from. -/
def derivedFrom (id : MemoryArtifactID) : List MemoryArtifactID :=
  ((index.lookup id).map (·.derivedFrom)).getD []

/-- What influenced an artifact. -/
def influencedBy (id : MemoryArtifactID) : List MemoryArtifactID :=
  ((index.lookup id).map (·.influencedBy)).getD []

variable {index} {id ancestor : MemoryArtifactID}

theorem mem_keys_of_mem_derivedFrom (h : ancestor ∈ index.derivedFrom id) : id ∈ index.keys := by
  by_contra hid
  rw [derivedFrom, AList.lookup_eq_none.2 hid] at h
  exact absurd h not_mem_nil

theorem mem_keys_of_mem_influencedBy (h : ancestor ∈ index.influencedBy id) : id ∈ index.keys := by
  by_contra hid
  rw [influencedBy, AList.lookup_eq_none.2 hid] at h
  exact absurd h not_mem_nil

end LineageIndex

/-! ### Evidence families -/

/-- The direct ancestors of each artifact in the index. -/
def ancestry (index : LineageIndex) : FinDigraph MemoryArtifactID where
  nodes := index.keys
  next id := index.derivedFrom id ++ index.influencedBy id
  outside id hid := by
    have hnone : index.lookup id = none := AList.lookup_eq_none.2 hid
    simp [LineageIndex.derivedFrom, LineageIndex.influencedBy, hnone]

/-- `EvidenceFamily`: the artifact with every ancestor that the index reaches. -/
def MemoryArtifactLineage.evidenceFamily (value : MemoryArtifactLineage) (index : LineageIndex) :
    List MemoryArtifactID :=
  (ancestry index).visit [value.artifactID] (value.derivedFrom ++ value.influencedBy)

/-- The episodes that exposed the artifacts of a family. An artifact without an entry is skipped. -/
def exposedEpisodes (ancestor : MemoryArtifactID) (index : LineageIndex) :
    List MemoryArtifactID → Result (List EpisodeID)
  | [] => pure []
  | id :: family =>
    match index.lookup id with
    | none => exposedEpisodes ancestor index family
    | some related => do
      ensure related.supportingEpisodesKnown
        (.detail errMemoryArtifactExposureUnknown
          ("artifact " ++ id.value ++ " in " ++ ancestor.value ++ "'s evidence family"))
      let exposed ← exposedEpisodes ancestor index family
      return related.supportingEpisodes ++ exposed

/-- Is some candidate not among the exposed episodes? -/
def hasUnexposed (exposed : List EpisodeID) : List EpisodeID → Result Bool
  | [] => pure false
  | episode :: candidates => do
    ensure (episode.isZero = false)
      (.value "memory.lineage.candidate_episodes" "must not contain empty identities")
    if episode ∉ exposed then pure true else hasUnexposed exposed candidates

/-- `ConfirmsMemoryArtifactIndependently`. -/
def confirmsMemoryArtifactIndependently (ancestor : MemoryArtifactID) (index : LineageIndex)
    (candidateEpisodes : List EpisodeID) : Result Bool :=
  match index.lookup ancestor with
  | none => .error (.value "memory.lineage.ancestor" "must be present in the lineage index")
  | some lineage => do
    let exposed ← exposedEpisodes ancestor index (lineage.evidenceFamily index)
    hasUnexposed exposed candidateEpisodes

/-- The entries of an index are filed under their own artifacts. -/
def LineageIndex.Filed (index : LineageIndex) : Prop :=
  ∀ id lineage, index.lookup id = some lineage → lineage.artifactID = id

variable {index : LineageIndex} {lineage : MemoryArtifactLineage}

/-- **The family is what the index reaches.** -/
theorem mem_evidenceFamily_iff (hfiled : index.Filed) {id artifact : MemoryArtifactID}
    (h : index.lookup artifact = some lineage) :
    id ∈ lineage.evidenceFamily index ↔ (ancestry index).Reach artifact id := by
  have hnext : (ancestry index).next artifact = lineage.derivedFrom ++ lineage.influencedBy := by
    simp [ancestry, LineageIndex.derivedFrom, LineageIndex.influencedBy, h]
  rw [MemoryArtifactLineage.evidenceFamily, hfiled _ _ h, ← hnext, FinDigraph.mem_visit_iff]
  · constructor
    · rintro (hid | ⟨x, hx, hreach⟩)
      · exact mem_singleton.1 hid ▸ .refl
      · exact .head hx hreach
    · intro hreach
      rcases Relation.ReflTransGen.cases_head hreach with rfl | ⟨x, hx, hrest⟩
      · exact .inl mem_cons_self
      · exact .inr ⟨x, hx, hrest⟩
  · intro v hv w hw
    exact .inr (mem_singleton.1 hv ▸ hw)

variable {exposed : List EpisodeID} {ids : List MemoryArtifactID}

theorem exposedEpisodes_ok {ancestor : MemoryArtifactID} {family : List MemoryArtifactID}
    (h : exposedEpisodes ancestor index family = .ok exposed) {episode : EpisodeID} :
    episode ∈ exposed ↔
      ∃ id ∈ family, ∃ lineage, index.lookup id = some lineage ∧
        episode ∈ lineage.supportingEpisodes := by
  induction family generalizing exposed with
  | nil =>
    obtain rfl := pure_ok_iff.1 h
    simp
  | cons id family ih =>
    rw [exposedEpisodes] at h
    split at h
    · next hnone => simp [ih h, hnone]
    · next related hsome =>
      simp only [run_ok_iff] at h
      obtain ⟨-, -, rest, hrest, rfl⟩ := h
      simp [ih hrest, hsome]

theorem exposedEpisodes_of_known (ancestor : MemoryArtifactID)
    (hknown : ∀ id lineage, index.lookup id = some lineage → lineage.supportingEpisodesKnown = true)
    (family : List MemoryArtifactID) :
    ∃ exposed, exposedEpisodes ancestor index family = .ok exposed := by
  induction family with
  | nil => exact ⟨[], rfl⟩
  | cons id family ih =>
    obtain ⟨exposed, hexposed⟩ := ih
    rw [exposedEpisodes]
    split
    · exact ⟨exposed, hexposed⟩
    · next related hsome =>
      rw [ensure_of (hknown _ _ hsome), ok_bind, hexposed]
      exact ⟨_, rfl⟩

variable {candidates : List EpisodeID}

theorem hasUnexposed_true (h : hasUnexposed exposed candidates = .ok true) :
    ∃ episode ∈ candidates, episode ∉ exposed := by
  induction candidates with
  | nil => exact nomatch h
  | cons episode candidates ih =>
    rw [hasUnexposed, bind_ok_iff] at h
    obtain ⟨-, -, h⟩ := h
    split_ifs at h with hexposed
    · obtain ⟨e, he, hnot⟩ := ih h
      exact ⟨e, mem_cons_of_mem _ he, hnot⟩
    · exact ⟨episode, mem_cons_self, hexposed⟩

section Confirmation

variable {ancestor : MemoryArtifactID}

/-- The episode exposed an artifact that the ancestor reaches and that the index has an entry
for. -/
def SeenExposed (index : LineageIndex) (ancestor : MemoryArtifactID) (episode : EpisodeID) : Prop :=
  ∃ id lineage, (ancestry index).Reach ancestor id ∧ index.lookup id = some lineage ∧
    episode ∈ lineage.supportingEpisodes

variable {episode : EpisodeID}

theorem mem_exposedEpisodes_iff (hfiled : index.Filed) (h : index.lookup ancestor = some lineage)
    (hexposed : exposedEpisodes ancestor index (lineage.evidenceFamily index) = .ok exposed) :
    episode ∈ exposed ↔ SeenExposed index ancestor episode := by
  rw [exposedEpisodes_ok hexposed]
  simp only [mem_evidenceFamily_iff hfiled h, ← exists_and_left]
  rfl

/-- An answer of `true` is about a candidate that exposed no artifact the index has an entry for. -/
theorem confirms_true (hfiled : index.Filed)
    (h : confirmsMemoryArtifactIndependently ancestor index candidates = .ok true) :
    ancestor ∈ index ∧ ∃ episode ∈ candidates, ¬SeenExposed index ancestor episode := by
  rw [confirmsMemoryArtifactIndependently] at h
  split at h
  · exact nomatch h
  · next lineage hlineage =>
    obtain ⟨exposed, hexposed, htrue⟩ := bind_ok_iff.1 h
    obtain ⟨episode, hmem, hnot⟩ := hasUnexposed_true htrue
    refine ⟨AList.lookup_isSome.1 (by rw [hlineage]; rfl), episode, hmem, ?_⟩
    rwa [← mem_exposedEpisodes_iff hfiled hlineage hexposed]

theorem confirms_singleton (hfiled : index.Filed)
    (hknown : ∀ id lineage, index.lookup id = some lineage → lineage.supportingEpisodesKnown = true)
    (hancestor : ancestor ∈ index) (hzero : episode.isZero = false)
    (hnot : ¬SeenExposed index ancestor episode) :
    confirmsMemoryArtifactIndependently ancestor index [episode] = .ok true := by
  obtain ⟨lineage, hlineage⟩ := Option.isSome_iff_exists.1 (AList.lookup_isSome.2 hancestor)
  obtain ⟨exposed, hexposed⟩ :=
    exposedEpisodes_of_known ancestor hknown (lineage.evidenceFamily index)
  rw [← mem_exposedEpisodes_iff hfiled hlineage hexposed] at hnot
  rw [confirmsMemoryArtifactIndependently, hlineage]
  simp only [hexposed, ok_bind, hasUnexposed, ensure_of hzero, if_pos hnot]
  rfl

end Confirmation

/-! ### Deletion -/

/-- Identities in the order of their texts. -/
def sortIDs (ids : List MemoryArtifactID) : List MemoryArtifactID :=
  ids.insertionSort fun a b => a.value ≤ b.value

@[simp] theorem mem_sortIDs {id : MemoryArtifactID} : id ∈ sortIDs ids ↔ id ∈ ids :=
  mem_insertionSort _

theorem sortIDs_pairwise (ids : List MemoryArtifactID) :
    (sortIDs ids).Pairwise fun a b => a.value ≤ b.value :=
  pairwise_insertionSort _ ids

theorem sortIDs_nodup (h : ids.Nodup) : (sortIDs ids).Nodup :=
  (perm_insertionSort _ ids).nodup_iff.2 h

theorem eq_of_sorted {xs ys : List MemoryArtifactID}
    (hx : xs.Pairwise fun a b => a.value ≤ b.value) (hy : ys.Pairwise fun a b => a.value ≤ b.value)
    (hxn : xs.Nodup) (hyn : ys.Nodup) (h : ∀ id, id ∈ xs ↔ id ∈ ys) : xs = ys :=
  ((perm_ext_iff_of_nodup hxn hyn).2 h).eq_of_pairwise
    (fun _ _ _ _ hab hba => TypedID.ext (le_antisymm hab hba)) hx hy

/-- The artifacts of `ids` that derive directly from an ancestor. -/
def dependentsOf (index : LineageIndex) (ids : List MemoryArtifactID)
    (ancestor : MemoryArtifactID) : List MemoryArtifactID :=
  ids.flatMap fun id => ((index.derivedFrom id).filter (· = ancestor)).map fun _ => id

variable {ancestor id : MemoryArtifactID}

theorem mem_dependentsOf_iff :
    id ∈ dependentsOf index ids ancestor ↔ id ∈ ids ∧ ancestor ∈ index.derivedFrom id := by
  simp only [dependentsOf, mem_flatMap, mem_map, mem_filter, decide_eq_true_eq]
  constructor
  · rintro ⟨id', hid, _, ⟨hmem, rfl⟩, rfl⟩
    exact ⟨hid, hmem⟩
  · rintro ⟨hid, hmem⟩
    exact ⟨id, hid, ancestor, ⟨hmem, rfl⟩, rfl⟩

/-- The direct dependents of each artifact. -/
def dependents (index : LineageIndex) : FinDigraph MemoryArtifactID where
  nodes := index.keys.flatMap index.derivedFrom
  next := dependentsOf index (sortIDs index.keys)
  outside ancestor h := by
    refine eq_nil_iff_forall_not_mem.2 fun id hid => h ?_
    obtain ⟨hkey, hmem⟩ := mem_dependentsOf_iff.1 hid
    exact mem_flatMap.2 ⟨id, mem_sortIDs.1 hkey, hmem⟩

theorem mem_dependents_next_iff :
    id ∈ (dependents index).next ancestor ↔ ancestor ∈ index.derivedFrom id := by
  show id ∈ dependentsOf index _ ancestor ↔ _
  rw [mem_dependentsOf_iff, mem_sortIDs]
  exact and_iff_right_of_imp LineageIndex.mem_keys_of_mem_derivedFrom

/-- What a deletion would affect. -/
structure MemoryArtifactDeletionPreview where
  target : MemoryArtifactID
  /-- Everything that derives from the target, over any number of steps. -/
  directDependents : List MemoryArtifactID
  /-- What was made in the context of the target. -/
  contextuallyInfluenced : List MemoryArtifactID
deriving DecidableEq

/-- The preview of a target that is not zero. -/
def deletionPreview (target : MemoryArtifactID) (index : LineageIndex) :
    MemoryArtifactDeletionPreview where
  target
  directDependents := sortIDs ((dependents index).spread [target] [target]).tail
  contextuallyInfluenced := (sortIDs index.keys).filter fun id => target ∈ index.influencedBy id

/-- What a deletion would take along. -/
def previewMemoryArtifactDeletion (target : MemoryArtifactID) (index : LineageIndex) :
    Result MemoryArtifactDeletionPreview := do
  ensure (target.isZero = false) (.value "memory.deletion.target" "must not be empty")
  return deletionPreview target index

variable {target : MemoryArtifactID}

theorem previewMemoryArtifactDeletion_of_nonzero
    (h : target.isZero = false) (index : LineageIndex) :
    previewMemoryArtifactDeletion target index = .ok (deletionPreview target index) := by
  rw [previewMemoryArtifactDeletion, ensure_of h, ok_bind]
  rfl

section Preview

variable {index' : LineageIndex}

theorem mem_directDependents_iff :
    id ∈ (deletionPreview target index).directDependents ↔
      id ≠ target ∧ (dependents index).Reach target id := by
  rw [deletionPreview, mem_sortIDs, FinDigraph.mem_tail_spread_iff]

theorem mem_contextuallyInfluenced_iff :
    id ∈ (deletionPreview target index).contextuallyInfluenced ↔
      target ∈ index.influencedBy id := by
  rw [deletionPreview, mem_filter, mem_sortIDs, decide_eq_true_eq]
  exact and_iff_right_of_imp LineageIndex.mem_keys_of_mem_influencedBy

/-- The preview depends on nothing but what reaches the target and what names it. -/
theorem deletionPreview_congr
    (hreach : ∀ id, (dependents index).Reach target id ↔ (dependents index').Reach target id)
    (hinfluence : ∀ id, target ∈ index.influencedBy id ↔ target ∈ index'.influencedBy id) :
    deletionPreview target index = deletionPreview target index' := by
  have hdependents : (deletionPreview target index).directDependents =
      (deletionPreview target index').directDependents := by
    refine eq_of_sorted (sortIDs_pairwise _) (sortIDs_pairwise _)
      (sortIDs_nodup FinDigraph.tail_spread_nodup) (sortIDs_nodup FinDigraph.tail_spread_nodup)
      fun id => ?_
    rw [mem_directDependents_iff, mem_directDependents_iff, hreach]
  have hinfluenced : (deletionPreview target index).contextuallyInfluenced =
      (deletionPreview target index').contextuallyInfluenced := by
    refine eq_of_sorted ((sortIDs_pairwise _).filter _) ((sortIDs_pairwise _).filter _)
      ((sortIDs_nodup index.keys_nodup).filter _) ((sortIDs_nodup index'.keys_nodup).filter _)
      fun id => ?_
    rw [mem_contextuallyInfluenced_iff, mem_contextuallyInfluenced_iff, hinfluence]
  rw [deletionPreview, deletionPreview, MemoryArtifactDeletionPreview.mk.injEq]
  exact ⟨rfl, hdependents, hinfluenced⟩

end Preview

/-- A request to delete, with the dependents that the user acknowledged. -/
structure MemoryArtifactDeletionRequest where
  target : MemoryArtifactID
  preview : MemoryArtifactDeletionPreview
  acknowledgedDependents : List MemoryArtifactID

/-- Equality as sets, by counting and inclusion. -/
def sameMemoryArtifactIDSet (a b : List MemoryArtifactID) : Bool :=
  a.dedup.length = b.dedup.length && a.dedup.all (· ∈ b)

theorem sameMemoryArtifactIDSet_iff {a b : List MemoryArtifactID} :
    sameMemoryArtifactIDSet a b = true ↔ ∀ id, id ∈ a ↔ id ∈ b := by
  rw [sameMemoryArtifactIDSet, Bool.and_eq_true_iff, decide_eq_true_eq, all_eq_true]
  constructor
  · rintro ⟨hlength, hsub⟩ id
    have hsubset : a.dedup ⊆ b.dedup := fun x hx =>
      mem_dedup.2 (of_decide_eq_true (hsub x hx))
    have hperm : a.dedup.Perm b.dedup :=
      (a.nodup_dedup.subperm hsubset).perm_of_length_le hlength.ge
    rw [← mem_dedup, hperm.mem_iff, mem_dedup]
  · intro h
    refine ⟨?_, fun x hx => decide_eq_true ((h x).1 (mem_dedup.1 hx))⟩
    refine ((perm_ext_iff_of_nodup a.nodup_dedup b.nodup_dedup).2 fun x => ?_).length_eq
    rw [mem_dedup, mem_dedup, h]

/-- Check a deletion. -/
def validateMemoryArtifactDeletion (request : MemoryArtifactDeletionRequest)
    (currentIndex : LineageIndex) : Result Unit := do
  ensure (request.target.isZero = false) (.value "memory.deletion.target" "must not be empty")
  ensure (request.preview.target = request.target)
    (.value "memory.deletion.preview" "must describe the same target as the request")
  let current ← previewMemoryArtifactDeletion request.target currentIndex
  ensure
    (sameMemoryArtifactIDSet current.directDependents request.preview.directDependents &&
      sameMemoryArtifactIDSet current.contextuallyInfluenced request.preview.contextuallyInfluenced)
    (.value "memory.deletion.preview"
      "does not match the current lineage; recompute the preview before deleting")
  ensure (current.directDependents = [] ∨
      sameMemoryArtifactIDSet request.acknowledgedDependents current.directDependents)
    (.value "memory.deletion.dependents"
      ("direct semantic dependents must be previewed and acknowledged, by identity, before " ++
        "deletion"))

/-- A fresh preview is accepted when its dependents, if there are any, were acknowledged. -/
theorem validateMemoryArtifactDeletion_fresh_iff (h : target.isZero = false) (index : LineageIndex)
    (acknowledged : List MemoryArtifactID) {u : Unit} :
    validateMemoryArtifactDeletion ⟨target, deletionPreview target index, acknowledged⟩ index =
        .ok u ↔
      (deletionPreview target index).directDependents = [] ∨
        ∀ id, id ∈ acknowledged ↔ id ∈ (deletionPreview target index).directDependents := by
  have hself : ∀ ids, sameMemoryArtifactIDSet ids ids = true := fun ids =>
    sameMemoryArtifactIDSet_iff.2 fun _ => Iff.rfl
  simp only [validateMemoryArtifactDeletion, previewMemoryArtifactDeletion_of_nonzero h, run_ok_iff,
    Unique.exists_iff, Except.ok.injEq, exists_eq_left', hself]
  rw [sameMemoryArtifactIDSet_iff]
  exact ⟨fun hvalid => hvalid.2.2.2, fun hvalid => ⟨h, rfl, rfl, hvalid⟩⟩

end Codeflux.Domain
