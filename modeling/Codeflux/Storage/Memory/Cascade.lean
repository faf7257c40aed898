import Codeflux.Storage.Memory.Revisions
import Mathlib.Data.List.MinMax

/-!
# The invalidation cascade

When the support of an artifact changes, the cascade quarantines the latest revision of each
artifact that transitively derives from it. Authority that a superseded revision has is left
standing, and so is the origin's own when the lineage is cyclic.
-/

namespace Codeflux.Storage

open Library Go Domain List

/-- Above this share an owner reviews. -/
def memoryArtifactCascadeReviewThresholdPercent : Nat := 5

/-- A request for a cascade. -/
structure CascadeMemoryArtifactInvalidation where
  projectID : ProjectID
  originArtifactID : MemoryArtifactID
  reasonKind : OpenEnum InvalidationReasonKind
  (detailRedacted idempotencyKeyPrefix : String)

/-- What a cascade did. -/
structure MemoryArtifactCascadeOutcome where
  quarantinedRevisions : List MemoryArtifactRevisionID
  (quarantinedArtifacts alreadyTerminal flaggedInfluenced : List MemoryArtifactID)
  activeArtifactCount : Nat
  requiresAssuranceOwnerReview : Bool
deriving DecidableEq

/-- The outcome so far, with the artifacts that were met. -/
structure CascadeProgress where
  affected : List MemoryArtifactID
  quarantinedRevisions : List MemoryArtifactRevisionID
  (quarantinedArtifacts alreadyTerminal : List MemoryArtifactID)

/-- Were too many quarantined? -/
def cascadeExceedsReviewThreshold (quarantined active : Nat) : Bool :=
  if quarantined = 0 ∨ active = 0 then false
  else quarantined * 100 > active * memoryArtifactCascadeReviewThresholdPercent

/-- The key of one descendant's transition. -/
def cascadeIdempotencyKey (keyPrefix : String) (descendant : MemoryArtifactID) : String :=
  if keyPrefix = "" then "cascade:" ++ descendant.value else keyPrefix ++ ":" ++ descendant.value

/-- The checks on a request. The detail and the prefix are optional. -/
def checkCascadeRequest (input : CascadeMemoryArtifactInvalidation) : Result Unit := do
  ensure (input.projectID.isZero = false) (.new "project ID must not be empty")
  ensure (input.originArtifactID.isZero = false)
    (.new "origin memory artifact ID must not be empty")
  ensure input.reasonKind.isValid (.new "memory artifact invalidation reason kind is not declared")
  if input.detailRedacted ≠ "" then
    validateBounded "memory artifact cascade detail" input.detailRedacted 8192
  if input.idempotencyKeyPrefix ≠ "" then
    validateBounded "memory artifact cascade idempotency key prefix" input.idempotencyKeyPrefix 200

/-- The transition of a descendant's revision. -/
def quarantineRequest (input : CascadeMemoryArtifactInvalidation) (descendant : MemoryArtifactID)
    (revision : MemoryRevisionRow) : TransitionMemoryArtifactMaturity where
  revisionID := revision.id
  source := .declared revision.maturity
  target := .declared .quarantined
  reasonKind := input.reasonKind
  detailRedacted :=
    if input.detailRedacted = "" then
      "Quarantined by transitive derived_from cascade from origin artifact " ++
        input.originArtifactID.value ++ "."
    else input.detailRedacted
  counterexampleEvidenceID := none
  idempotencyKey := cascadeIdempotencyKey input.idempotencyKeyPrefix descendant

namespace MemoryStore

variable (id : MemoryArtifactID)

section Reads

variable (store : MemoryStore)

/-- The revisions of an artifact. -/
def revisionsOf : List MemoryRevisionRow :=
  store.revisions.rows.filter (·.artifactID == id)

/-- The revision with the highest number. -/
def latestRevision : Option MemoryRevisionRow :=
  (store.revisionsOf id).argmax (·.revisionNumber)

/-- Is the artifact deleted? -/
def memoryArtifactIsDeleted : Result Bool := do
  ensure (id.isZero = false) (.new "memory artifact ID must not be empty")
  match store.findArtifact id with
  | none => .error (.typed errNotFound "check memory artifact deletion" errNoRows)
  | some artifact => return artifact.deletedAt.isSome

/-- Read the latest revision. -/
def getLatestMemoryArtifactRevision : Result MemoryRevisionRow := do
  ensure (id.isZero = false) (.new "memory artifact ID must not be empty")
  match store.latestRevision id with
  | none => .error (.typed errNotFound "get latest memory artifact revision" errNoRows)
  | some revision => return revision

/-- The descendants, up to the bound. -/
def loadMemoryArtifactDerivedFromDescendants (target : MemoryArtifactID) (bound : Nat) :
    Result (List MemoryArtifactID) := do
  let descendants := (store.descendantClosure target).take (bound + 1)
  ensure (descendants.length ≤ bound)
    (.detail errMemoryArtifactLineageTooLarge
      ("origin " ++ target.value ++ "'s derived_from descendant closure reaches at least " ++
        toString descendants.length ++ " artifacts (bound " ++ toString bound ++ ")"))
  return descendants

/-- The number of live artifacts. -/
def countActiveMemoryArtifacts (projectID : ProjectID) : Nat :=
  store.artifacts.rows.countP fun row => row.projectID = projectID ∧ row.deletedAt = none

/-- The artifacts that name the ancestor as an influence, without those that were seen. -/
def flagInfluenced (flagged : List MemoryArtifactID) (affected : List MemoryArtifactID)
    (ancestor : MemoryArtifactID) : List MemoryArtifactID :=
  (store.influencedBy.rows.filter (·.ancestorID == ancestor)).foldl
    (fun flagged row =>
      if row.artifactID ∈ affected ∨ row.artifactID ∈ flagged then flagged
      else flagged ++ [row.artifactID])
    flagged

/-- What the affected influenced. -/
def listMemoryArtifactInfluencedDependents (affected : List MemoryArtifactID) :
    List MemoryArtifactID :=
  affected.foldl (fun flagged ancestor => store.flagInfluenced flagged affected ancestor) []

end Reads

/-! ### The cascade -/

/-- One descendant of the cascade. Each transition commits by itself. -/
def cascadeOne (env : Surroundings) (clock : MemoryArtifactID → Int)
    (input : CascadeMemoryArtifactInvalidation) (progress : CascadeProgress)
    (descendant : MemoryArtifactID) : Effect MemoryStore Failure CascadeProgress :=
  if descendant = input.originArtifactID then pure progress
  else do
    let progress := { progress with affected := progress.affected ++ [descendant] }
    let deleted ← Effect.query fun store => store.memoryArtifactIsDeleted descendant
    if deleted then pure progress
    else do
      let revision ← Effect.query fun store => store.getLatestMemoryArtifactRevision descendant
      if revision.maturity.canReachAuthority = false then
        -- quarantine is terminal, so there is nothing to move
        pure { progress with alreadyTerminal := progress.alreadyTerminal ++ [descendant] }
      else do
        let _ ← Effect.transaction fun store =>
          store.transitionMemoryArtifactMaturity env (clock descendant)
            (quarantineRequest input descendant revision)
        pure { progress with
          quarantinedRevisions := progress.quarantinedRevisions ++ [revision.id]
          quarantinedArtifacts := progress.quarantinedArtifacts ++ [descendant] }

/-- `cascadeMemoryArtifactInvalidationBounded`, with the time at which each descendant is
handled. -/
def cascadeMemoryArtifactInvalidationBounded (env : Surroundings) (clock : MemoryArtifactID → Int)
    (input : CascadeMemoryArtifactInvalidation) (bound : Nat) :
    Effect MemoryStore Failure MemoryArtifactCascadeOutcome := do
  Effect.lift (checkCascadeRequest input)
  let descendants ← Effect.query fun store =>
    store.loadMemoryArtifactDerivedFromDescendants input.originArtifactID bound
  let active ← Effect.query fun store => .ok (store.countActiveMemoryArtifacts input.projectID)
  let progress ← descendants.foldlM (cascadeOne env clock input)
    ⟨[input.originArtifactID], [], [], []⟩
  let flagged ← Effect.query fun store =>
    .ok (store.listMemoryArtifactInfluencedDependents progress.affected)
  pure { progress with
    flaggedInfluenced := flagged
    activeArtifactCount := active
    requiresAssuranceOwnerReview :=
      cascadeExceedsReviewThreshold progress.quarantinedArtifacts.length active }

/-- `CascadeMemoryArtifactInvalidationTransitively`. -/
def cascadeMemoryArtifactInvalidation (env : Surroundings) (clock : MemoryArtifactID → Int)
    (input : CascadeMemoryArtifactInvalidation) :
    Effect MemoryStore Failure MemoryArtifactCascadeOutcome :=
  cascadeMemoryArtifactInvalidationBounded env clock input
    maximumMemoryArtifactLineageDeletionTraversal

/-! ### Latest revisions -/

variable (store : MemoryStore)

section Latest

variable {store : MemoryStore} {row a b : MemoryRevisionRow} {id : MemoryArtifactID}

/-- A later revision of the same artifact exists. -/
def Superseded (row : MemoryRevisionRow) : Prop :=
  ∃ later ∈ store.revisions.rows, later.artifactID = row.artifactID ∧
    row.revisionNumber < later.revisionNumber

instance : Decidable (store.Superseded row) :=
  inferInstanceAs (Decidable (∃ later ∈ store.revisions.rows, _))

instance : Decidable (store.Live id) :=
  inferInstanceAs (Decidable (∃ row ∈ store.artifacts.rows, _))

theorem eq_of_not_superseded (ha : a ∈ store.revisions.rows) (hb : b ∈ store.revisions.rows)
    (hartifact : a.artifactID = b.artifactID) (ha' : ¬store.Superseded a)
    (hb' : ¬store.Superseded b) : a = b := by
  have hnumber : a.revisionNumber = b.revisionNumber := Nat.le_antisymm
    (Nat.le_of_not_lt fun hlt => hb' ⟨a, ha, hartifact, hlt⟩)
    (Nat.le_of_not_lt fun hlt => ha' ⟨b, hb, hartifact.symm, hlt⟩)
  exact Table.eq_of_conflict ha hb (by simp [memoryRevisionSchema, hartifact, hnumber])

theorem Superseded.next (hsound : store.Sound) (h : store.Superseded row) :
    ∃ next ∈ store.revisions.rows, next.artifactID = row.artifactID ∧
      next.revisionNumber = row.revisionNumber + 1 := by
  obtain ⟨later, hlater, hsame, hlt⟩ := h
  -- downwards from the later revision
  obtain ⟨distance, hdistance⟩ : ∃ distance,
      later.revisionNumber = row.revisionNumber + 1 + distance :=
        ⟨_, (Nat.add_sub_cancel' hlt).symm⟩
  induction distance generalizing later with
  | zero => exact ⟨later, hlater, hsame, hdistance⟩
  | succ distance ih =>
    obtain ⟨prior, hprior, hartifact, hnumber⟩ := hsound.numbered later hlater (by omega)
    exact ih prior hprior (hartifact.trans hsame) (by omega) (by omega)

theorem latestRevision_eq_some_iff :
    store.latestRevision id = some row ↔
      row ∈ store.revisions.rows ∧ row.artifactID = id ∧ ¬store.Superseded row := by
  have hmem : ∀ {r : MemoryRevisionRow},
      r ∈ store.revisionsOf id ↔ r ∈ store.revisions.rows ∧ r.artifactID = id := by
    simp [revisionsOf]
  have hlast : ∀ {r}, store.latestRevision id = some r → ¬store.Superseded r := by
    rintro r hr ⟨later, hlater, hsame, hlt⟩
    have hid := (hmem.1 (argmax_mem hr)).2
    have hle := le_of_mem_argmax (hmem.2 ⟨hlater, hsame.trans hid⟩) hr
    exact absurd hlt (Nat.not_lt.2 hle)
  constructor
  · intro h
    obtain ⟨hrow, hartifact⟩ := hmem.1 (argmax_mem h)
    exact ⟨hrow, hartifact, hlast h⟩
  · rintro ⟨hrow, hartifact, hlatest⟩
    cases hmax : store.latestRevision id with
    | none =>
      have hnil : store.revisionsOf id = [] := argmax_eq_none.1 hmax
      exact absurd (hmem.2 ⟨hrow, hartifact⟩) (hnil ▸ not_mem_nil)
    | some latest =>
      obtain ⟨hmem', hartifact'⟩ := hmem.1 (argmax_mem hmax)
      rw [eq_of_not_superseded hmem' hrow (hartifact'.trans hartifact.symm) (hlast hmax) hlatest]

/-! A change of the rows that leaves the keys alone -/

variable {store' : MemoryStore} {f : MemoryRevisionRow → MemoryRevisionRow}
  (hkeys : ∀ row, (f row).artifactID = row.artifactID ∧ (f row).revisionNumber = row.revisionNumber)
  (hrows : store'.revisions.rows = store.revisions.rows.map f)

include hkeys hrows

theorem superseded_map_iff : store'.Superseded (f row) ↔ store.Superseded row := by
  simp [Superseded, hrows, hkeys]

theorem latestRevision_map : store'.latestRevision id = (store.latestRevision id).map f := by
  refine Option.ext fun row => ?_
  simp only [latestRevision_eq_some_iff, Option.map_eq_some_iff, hrows, mem_map]
  constructor
  · rintro ⟨⟨old, hold, rfl⟩, hid, hlast⟩
    rw [superseded_map_iff hkeys hrows] at hlast
    exact ⟨old, ⟨hold, (hkeys old).1 ▸ hid, hlast⟩, rfl⟩
  · rintro ⟨old, ⟨hold, hid, hlast⟩, rfl⟩
    rw [← superseded_map_iff hkeys hrows] at hlast
    exact ⟨⟨old, hold, rfl⟩, (hkeys old).1 ▸ hid, hlast⟩

end Latest

/-! ### What the cascade writes -/

section Writes

variable {store current current' : MemoryStore} {env : Surroundings}
  {clock : MemoryArtifactID → Int} {input : CascadeMemoryArtifactInvalidation}
  {origin id : MemoryArtifactID} {done : List MemoryArtifactID} {row : MemoryRevisionRow}

/-- The revisions that a cascade over the given artifacts quarantines: the latest one of each live
artifact, if it can reach authority. -/
def Condemned (origin : MemoryArtifactID) (ids : List MemoryArtifactID)
    (row : MemoryRevisionRow) : Prop :=
  row.artifactID ∈ ids ∧ row.artifactID ≠ origin ∧ store.Live row.artifactID ∧
    ¬store.Superseded row ∧ row.maturity.canReachAuthority = true

instance : Decidable (store.Condemned origin done row) :=
  inferInstanceAs (Decidable (_ ∧ _))

/-- Quarantine a condemned revision. -/
def condemn (origin : MemoryArtifactID) (ids : List MemoryArtifactID)
    (row : MemoryRevisionRow) : MemoryRevisionRow :=
  if store.Condemned origin ids row then { row with maturity := .quarantined } else row

theorem condemn_keys (row : MemoryRevisionRow) :
    (store.condemn origin done row).id = row.id ∧
      (store.condemn origin done row).artifactID = row.artifactID ∧
      (store.condemn origin done row).revisionNumber = row.revisionNumber := by
  unfold condemn
  split_ifs <;> exact ⟨rfl, rfl, rfl⟩

theorem condemned_concat_iff : store.Condemned origin (done ++ [id]) row ↔
    store.Condemned origin done row ∨ store.Condemned origin [id] row := by
  simp only [Condemned, mem_append, or_and_right]

theorem condemn_concat (h : store.Condemned origin [id] row → store.Condemned origin done row) :
    store.condemn origin (done ++ [id]) row = store.condemn origin done row :=
  if_congr (condemned_concat_iff.trans (or_iff_left_of_imp h)) rfl rfl

/-- The current store is the first one after the cascade handled the artifacts `done`. -/
structure CascadedTo (store : MemoryStore) (origin : MemoryArtifactID)
    (done : List MemoryArtifactID) (current : MemoryStore) : Prop where
  sound : current.Sound
  revisions : current.revisions.rows = store.revisions.rows.map (store.condemn origin done)
  rest : current =
    { store with revisions := current.revisions, transitions := current.transitions }

variable {revision : MemoryRevisionRow}

namespace CascadedTo

section

variable (h : store.CascadedTo origin done current)

include h

theorem artifacts : current.artifacts = store.artifacts := by
  rw [h.rest]

theorem corroborated_iff {id : MemoryArtifactRevisionID} :
    current.Corroborated id ↔ store.Corroborated id := by
  rw [h.rest]
  rfl

theorem superseded_iff :
    current.Superseded (store.condemn origin done row) ↔ store.Superseded row :=
  superseded_map_iff (fun row => (condemn_keys row).2) h.revisions

/-- A revision that is condemned for an artifact only now is the latest one of that artifact. -/
theorem latest_of_condemned
    (hrow : row ∈ store.revisions.rows) (hnew : store.Condemned origin [id] row)
    (hold : ¬store.Condemned origin done row) : current.latestRevision id = some row := by
  obtain ⟨hid, -, -, hlatest, -⟩ := hnew
  have hkept : store.condemn origin done row = row := if_neg hold
  refine latestRevision_eq_some_iff.2 ⟨?_, mem_singleton.1 hid, ?_⟩
  · rw [h.revisions]
    exact mem_map.2 ⟨row, hrow, hkept⟩
  · rwa [← hkept, h.superseded_iff]

/-- An artifact is done when no revision of it is condemned that was not before. -/
theorem skip (hnone : ∀ row ∈ store.revisions.rows, store.Condemned origin [id] row →
      store.Condemned origin done row) : store.CascadedTo origin (done ++ [id]) current :=
  { h with revisions := h.revisions.trans (map_congr_left fun row hrow =>
      (condemn_concat (hnone row hrow)).symm) }

/-- An artifact is done when its latest revision was moved to quarantine. -/
theorem move (horigin : id ≠ origin) (hlive : store.Live id)
    (hlatest : current.latestRevision id = some revision)
    (hreach : revision.maturity.canReachAuthority = true)
    (hmoves : current.MovesMaturity revision.id revision.maturity .quarantined current') :
    store.CascadedTo origin (done ++ [id]) current' := by
  obtain ⟨hmem, hartifact, hlast⟩ := latestRevision_eq_some_iff.1 hlatest
  refine ⟨hmoves.sound h.sound, ?_, ?_⟩
  · rw [hmoves.revisions, h.revisions, map_map]
    refine map_congr_left fun row hrow => ?_
    have hcondemn : store.condemn origin done row ∈ current.revisions.rows := by
      rw [h.revisions]
      exact mem_map_of_mem hrow
    by_cases hid : row.id = revision.id
    · -- the moved revision was not condemned before, since it could reach authority
      have heq : store.condemn origin done row = revision :=
        eq_of_revision_id hcondemn hmem ((condemn_keys row).1.trans hid)
      have hold : ¬store.Condemned origin done row := fun hold => by
        rw [condemn, if_pos hold] at heq
        rw [← heq] at hreach
        exact Bool.false_ne_true hreach
      rw [condemn, if_neg hold] at heq
      subst heq
      have hnew : store.Condemned origin [id] row := by
        refine ⟨by simp [hartifact], hartifact ▸ horigin, hartifact ▸ hlive, ?_, hreach⟩
        rwa [← h.superseded_iff, condemn, if_neg hold]
      rw [Function.comp_apply, condemn, if_neg hold, setMaturity, if_pos ⟨rfl, rfl⟩, condemn,
        if_pos (condemned_concat_iff.2 (.inr hnew))]
    · have hkept : setMaturity revision.id revision.maturity .quarantined
          (store.condemn origin done row) = store.condemn origin done row :=
        if_neg fun hset => hid ((condemn_keys row).1.symm.trans hset.1)
      rw [Function.comp_apply, hkept]
      refine (condemn_concat fun hnew => not_not.1 fun hold => ?_).symm
      have hrevision := h.latest_of_condemned hrow hnew hold
      rw [hlatest, Option.some.injEq] at hrevision
      exact hid (hrevision ▸ rfl)
  · rw [hmoves.rest, h.rest]

end

end CascadedTo

/-- A quarantine that was logged before has taken its revision out of the reach of authority. -/
theorem not_logged_quarantine (hsound : current.Sound)
    (hrevision : revision ∈ current.revisions.rows)
    (hreach : revision.maturity.canReachAuthority = true) {logged : MaturityTransitionRow}
    (hlogged : logged ∈ current.transitions.rows) (hid : logged.revisionID = revision.id) :
    logged.toState ≠ .quarantined := by
  intro hstate
  obtain ⟨moved, hmoved, heq, -, hterminal⟩ := hsound.logged logged hlogged
  rw [eq_of_revision_id hmoved hrevision (heq.trans hid), hstate] at hterminal
  exact absurd ((hterminal rfl).symm.trans hreach) Bool.false_ne_true

theorem memoryArtifactIsDeleted_ok {deleted : Bool}
    (h : current.memoryArtifactIsDeleted id = .ok deleted) : deleted = false ↔ current.Live id := by
  simp only [memoryArtifactIsDeleted, bind_ok_iff] at h
  obtain ⟨-, -, h⟩ := h
  split at h
  · exact nomatch h
  · next artifact hartifact =>
    obtain rfl := pure_ok_iff.1 h
    have hlive : current.Live id ↔
        ∃ row, current.findArtifact id = some row ∧ row.deletedAt = none := by
      simp only [Live, findArtifact_eq_some_iff, and_assoc]
    simp [hlive, hartifact]

theorem getLatestMemoryArtifactRevision_ok
    (h : current.getLatestMemoryArtifactRevision id = .ok revision) :
    current.latestRevision id = some revision := by
  simp only [getLatestMemoryArtifactRevision, bind_ok_iff] at h
  obtain ⟨-, -, h⟩ := h
  split at h
  · exact nomatch h
  · next latest hlatest =>
    exact pure_ok_iff.1 h ▸ hlatest

/-- **One descendant.** A cascade that handled some artifacts has handled one more. -/
theorem cascadeOne_ok {progress progress' : CascadeProgress}
    (h : store.CascadedTo input.originArtifactID done current)
    (hok : cascadeOne env clock input progress id current = (.ok progress', current')) :
    store.CascadedTo input.originArtifactID (done ++ [id]) current' := by
  unfold cascadeOne at hok
  split_ifs at hok with horigin
  · obtain ⟨-, rfl⟩ := Effect.pure_ok_iff.1 hok
    exact h.skip fun row _ hnew =>
      absurd ((mem_singleton.1 hnew.1).trans horigin) hnew.2.1
  · simp only [Effect.bind_ok_iff, Effect.query_ok_iff] at hok
    obtain ⟨deleted, _, ⟨hdeleted, rfl⟩, hok⟩ := hok
    have hlive : deleted = false ↔ store.Live id := by
      rw [memoryArtifactIsDeleted_ok hdeleted, Live, Live, h.artifacts]
    split_ifs at hok with hgone
    · obtain ⟨-, rfl⟩ := Effect.pure_ok_iff.1 hok
      refine h.skip fun row _ hnew => ?_
      have hrow := hnew.2.2.1
      rw [mem_singleton.1 hnew.1, ← hlive, hgone] at hrow
      cases hrow
    · simp only [Effect.bind_ok_iff, Effect.query_ok_iff] at hok
      obtain ⟨revision, _, ⟨hrevision, rfl⟩, hok⟩ := hok
      have hlast := getLatestMemoryArtifactRevision_ok hrevision
      split_ifs at hok with hterminal
      · obtain ⟨-, rfl⟩ := Effect.pure_ok_iff.1 hok
        refine h.skip fun row hrow hnew => ?_
        by_contra hold
        have hcan := hnew.2.2.2.2
        rw [← Option.some.inj (hlast.symm.trans (h.latest_of_condemned hrow hnew hold)),
          hterminal] at hcan
        exact Bool.false_ne_true hcan
      · simp only [Effect.bind_ok_iff, Effect.transaction_ok_iff, Effect.pure_ok_iff] at hok
        obtain ⟨record, _, hmove, -, rfl⟩ := hok
        rw [Bool.not_eq_false] at hterminal
        have hmem := (latestRevision_eq_some_iff.1 hlast).1
        rcases transitionMemoryArtifactMaturity_ok hmove with
          ⟨-, logged, hlogged, hid, -, htarget⟩ | ⟨source, target, hsource, htarget, hmoves⟩
        · exact absurd (OpenEnum.declared.inj htarget).symm
            (not_logged_quarantine h.sound hmem hterminal hlogged hid)
        · cases hsource
          cases htarget
          exact h.move horigin (hlive.1 (Bool.not_eq_true _ ▸ hgone)) hlast hterminal hmoves

theorem foldlM_cascadeOne_ok {ids : List MemoryArtifactID} {progress progress' : CascadeProgress}
    (h : store.CascadedTo input.originArtifactID done current)
    (hok : ids.foldlM (cascadeOne env clock input) progress current = (.ok progress', current')) :
    store.CascadedTo input.originArtifactID (done ++ ids) current' := by
  induction ids generalizing done progress current with
  | nil =>
    obtain ⟨-, rfl⟩ := Effect.pure_ok_iff.1 hok
    rwa [append_nil]
  | cons id ids ih =>
    rw [foldlM_cons, Effect.bind_ok_iff] at hok
    obtain ⟨next, middle, hone, hrest⟩ := hok
    simpa using ih (cascadeOne_ok h hone) hrest

theorem cascadedTo_nil (hsound : store.Sound) : store.CascadedTo origin [] store := by
  refine ⟨hsound, (map_id'' (fun row => if_neg fun h => ?_) _).symm, rfl⟩
  exact not_mem_nil h.1

/-- **What a successful cascade writes.** It condemns over the whole closure of the origin. -/
theorem cascade_ok (hsound : store.Sound) {outcome : MemoryArtifactCascadeOutcome}
    (h : cascadeMemoryArtifactInvalidation env clock input store = (.ok outcome, current)) :
    ∃ descendants, (∀ id, id ∈ descendants ↔ store.InClosure input.originArtifactID id) ∧
      store.CascadedTo input.originArtifactID descendants current := by
  simp only [cascadeMemoryArtifactInvalidation, cascadeMemoryArtifactInvalidationBounded,
    Effect.bind_ok_iff, Effect.lift_ok_iff, Effect.query_ok_iff, Effect.pure_ok_iff,
    loadMemoryArtifactDerivedFromDescendants, run_ok_iff, length_take] at h
  obtain ⟨_, _, ⟨-, rfl⟩, descendants, _, ⟨⟨_, hbound, rfl⟩, rfl⟩, _, _, ⟨-, rfl⟩, progress, final,
    hloop, _, _, ⟨-, rfl⟩, -, rfl⟩ := h
  refine ⟨_, fun id => ?_, by simpa using foldlM_cascadeOne_ok (cascadedTo_nil hsound) hloop⟩
  rw [take_of_length_le (by omega), mem_descendantClosure_iff]

end Writes

/-! ### Later operations -/

section Later

variable {env : Surroundings} {store store' : MemoryStore} {id : MemoryArtifactID}

/-- A correction or a change of maturity, at any time. -/
def LaterStep (env : Surroundings) (store store' : MemoryStore) : Prop :=
  ∃ now, (∃ input written,
      store.createMemoryArtifactCorrection env now input = .ok (written, store')) ∨
    ∃ input record, store.transitionMemoryArtifactMaturity env now input = .ok (record, store')

/-- No revision of the artifact has authority, or can gain it. -/
structure Spent (store : MemoryStore) (id : MemoryArtifactID) : Prop where
  latest : ∃ row, store.latestRevision id = some row ∧ row.maturity.canReachAuthority = false
  superseded : ∀ row ∈ store.revisions.rows, row.artifactID = id → store.Superseded row →
    row.maturity.isAuthorityBearing = false ∧
      ¬(row.maturity = .candidate ∧ store.Corroborated row.id)

namespace Spent

variable {row : MemoryRevisionRow}

section

variable (h : store.Spent id)

include h

/-- Only a superseded revision of a spent artifact may still reach authority. -/
theorem superseded_of_canReachAuthority
    (hrow : row ∈ store.revisions.rows) (hid : row.artifactID = id)
    (hreach : row.maturity.canReachAuthority = true) : store.Superseded row := by
  by_contra hsuperseded
  obtain ⟨latest, hlatest, hterminal⟩ := h.latest
  obtain ⟨hmem, hartifact, hlast⟩ := latestRevision_eq_some_iff.1 hlatest
  obtain rfl := eq_of_not_superseded hmem hrow (hartifact.trans hid.symm) hlast hsuperseded
  rw [hterminal] at hreach
  exact Bool.false_ne_true hreach

theorem noAuthority (hrow : row ∈ store.revisions.rows) (hid : row.artifactID = id) :
    row.maturity.isAuthorityBearing = false := by
  by_contra hbearing
  have hreach := MaturityState.canReachAuthority_iff.2 (.inr (Bool.not_eq_false _ ▸ hbearing))
  exact hbearing (h.superseded row hrow hid
    (h.superseded_of_canReachAuthority hrow hid hreach)).1

/-- What an artifact is spent for: its own revisions, and the evidence. -/
theorem congr (hrows : ∀ row : MemoryRevisionRow, row.artifactID = id →
      (row ∈ store'.revisions.rows ↔ row ∈ store.revisions.rows))
    (hevidence : store'.supportingEvidence = store.supportingEvidence) : store'.Spent id := by
  have hsuperseded : ∀ row : MemoryRevisionRow, row.artifactID = id →
      (store'.Superseded row ↔ store.Superseded row) := by
    refine fun row hid => exists_congr fun later => and_congr_left fun ⟨hsame, _⟩ => ?_
    exact hrows later (hsame.trans hid)
  refine ⟨?_, fun row hrow hid hlater => ?_⟩
  · obtain ⟨latest, hlatest, hreach⟩ := h.latest
    obtain ⟨hmem, hid, hlast⟩ := latestRevision_eq_some_iff.1 hlatest
    exact ⟨latest, latestRevision_eq_some_iff.2 ⟨(hrows latest hid).2 hmem, hid,
      fun hlater => hlast ((hsuperseded latest hid).1 hlater)⟩, hreach⟩
  · rw [Corroborated, hevidence]
    exact h.superseded row ((hrows row hid).1 hrow) hid ((hsuperseded row hid).1 hlater)

/-- A correction of a spent artifact is refused: its latest revision cannot be corrected, and the
numbers after the others are taken. -/
theorem correct {prior : MemoryRevisionRow} {now : Int} {input : CreateMemoryArtifactCorrection}
    {json sha : String} (hsound : store.Sound)
    (hprior : prior ∈ store.revisions.rows) (hreach : prior.maturity.canReachAuthority = true)
    (hadds : store.AddsRevision (correctedRow now input prior json sha) store') :
    store'.Spent id := by
  have hother : prior.artifactID ≠ id := by
    intro hid
    obtain ⟨next, hnext, hsame, hnumber⟩ :=
      (h.superseded_of_canReachAuthority hprior hid hreach).next hsound
    have hconflict := hadds.admitted.2 next hnext
    simp [memoryRevisionSchema, correctedRow, hsame, hnumber] at hconflict
  refine h.congr (fun row hid => ?_) (by rw [hadds.rest])
  rw [hadds.rows, mem_append, mem_singleton, or_iff_left]
  rintro rfl
  exact hother hid

/-- A change of maturity does not revive a spent artifact. -/
theorem move {revisionID : MemoryArtifactRevisionID} {source target : MaturityState}
    (hmoves : store.MovesMaturity revisionID source target store') : store'.Spent id := by
  have hkeys := fun row => (@setMaturity_keys revisionID source target row).2
  have hevidence : store'.supportingEvidence = store.supportingEvidence := by rw [hmoves.rest]
  refine ⟨?_, fun row hrow hid hlater => ?_⟩
  · obtain ⟨latest, hlatest, hreach⟩ := h.latest
    refine ⟨setMaturity revisionID source target latest, ?_, ?_⟩
    · rw [latestRevision_map hkeys hmoves.revisions, hlatest, Option.map_some]
    · unfold setMaturity
      split_ifs with hset
      · exact MaturityState.canReachAuthority_of_transition hmoves.governed (hset.2 ▸ hreach)
      · exact hreach
  · rw [hmoves.revisions] at hrow
    obtain ⟨old, hold, rfl⟩ := mem_map.1 hrow
    rw [(hkeys old).1] at hid
    rw [superseded_map_iff hkeys hmoves.revisions] at hlater
    obtain ⟨hauthority, hpromotable⟩ := h.superseded old hold hid hlater
    rw [Corroborated, hevidence]
    unfold setMaturity
    split_ifs with hset
    · refine ⟨?_, fun hcandidate => ?_⟩
      · by_contra htarget
        rw [Bool.not_eq_false] at htarget
        have hsource := MaturityState.isAuthorityBearing_of_transition hmoves.governed htarget
        rcases MaturityState.canReachAuthority_iff.1 hsource with hcandidate | hbearing
        · exact hpromotable ⟨hset.2.trans hcandidate, hset.1 ▸ hmoves.earned htarget⟩
        · rw [hset.2, hbearing] at hauthority
          exact nomatch hauthority
      · exact MaturityState.ne_candidate_of_transition hmoves.governed hcandidate.1
    · exact ⟨hauthority, hpromotable⟩

theorem step (hsound : store.Sound) (hstep : LaterStep env store store') : store'.Spent id := by
  obtain ⟨now, ⟨input, written, hok⟩ | ⟨input, record, hok⟩⟩ := hstep
  · rcases createMemoryArtifactCorrection_ok hok with
      rfl | ⟨prior, hprior, hreach, -, -, _, _, hadds⟩
    · exact h
    · exact h.correct hsound hprior hreach hadds
  · rcases transitionMemoryArtifactMaturity_ok hok with ⟨rfl, -⟩ | ⟨source, target, -, -, hmoves⟩
    · exact h
    · exact h.move hmoves

end

end Spent

theorem LaterStep.sound (h : LaterStep env store store') (hsound : store.Sound) : store'.Sound := by
  obtain ⟨now, ⟨input, written, hok⟩ | ⟨input, record, hok⟩⟩ := h
  · exact @MemoryOperation.apply_sound _ _ _ (.correct now input) hsound
      (map_ok_iff.2 ⟨_, hok, rfl⟩)
  · exact @MemoryOperation.apply_sound _ _ _ (.transition now input) hsound
      (map_ok_iff.2 ⟨_, hok, rfl⟩)

theorem Spent.later (h : store.Spent id) (hsound : store.Sound)
    (hlater : Relation.ReflTransGen (LaterStep env) store store') :
    store'.Spent id ∧ store'.Sound := by
  induction hlater with
  | refl => exact ⟨h, hsound⟩
  | tail _ hstep ih => exact ⟨ih.1.step ih.2 hstep, hstep.sound ih.2⟩

end Later

/-! ### What a cascade is for -/

section Purpose

variable {env : Surroundings} {store current : MemoryStore} {origin id : MemoryArtifactID}
  {row : MemoryRevisionRow} {descendants : List MemoryArtifactID}

/-- The latest revision of the artifact is quarantined. -/
def IsQuarantined (id : MemoryArtifactID) : Prop :=
  ∃ row, store.latestRevision id = some row ∧ row.maturity = .quarantined

/-- What a cascade from the origin is for: no descendant that is not deleted has authority, what
does not derive from the origin keeps its maturity, and later operations do not give authority back
to a quarantined descendant. -/
structure NoAuthorityStands (env : Surroundings) (store : MemoryStore) (origin : MemoryArtifactID)
    (current : MemoryStore) : Prop where
  descendants : ∀ id, store.Descends origin id → store.Live id →
    ∀ row ∈ current.revisions.rows, row.artifactID = id → row.maturity.isAuthorityBearing = false
  outside : ∀ id, ¬store.Descends origin id → current.revisionsOf id = store.revisionsOf id
  later : ∀ id, store.Descends origin id → current.IsQuarantined id →
    ∀ final, Relation.ReflTransGen (LaterStep env) current final →
      ∀ row ∈ final.revisions.rows, row.artifactID = id → row.maturity.isAuthorityBearing = false

/-- The artifact is quarantined, or the cascade will quarantine it. -/
def EndsQuarantined (origin id : MemoryArtifactID) : Prop :=
  ∃ row, store.latestRevision id = some row ∧
    (row.maturity = .quarantined ∨
      id ≠ origin ∧ store.Live id ∧ row.maturity.canReachAuthority = true)

/-- The stores in which a cascade from the origin achieves its purpose: authority is with the latest
revisions of proper descendants only, and superseded revisions of what gets quarantined can gain
none. -/
structure CascadeComplete (store : MemoryStore) (origin : MemoryArtifactID) : Prop where
  standing : ∀ row ∈ store.revisions.rows, store.Descends origin row.artifactID →
    store.Live row.artifactID → (row.artifactID = origin ∨ store.Superseded row) →
      row.maturity.isAuthorityBearing = false
  dormant : ∀ row ∈ store.revisions.rows, store.Descends origin row.artifactID →
    store.EndsQuarantined origin row.artifactID → store.Superseded row →
      row.maturity.isAuthorityBearing = false ∧
        ¬(row.maturity = .candidate ∧ store.Corroborated row.id)

theorem mem_descendants_of_descends
    (hdescendants : ∀ id, id ∈ descendants ↔ store.InClosure origin id)
    (h : store.Descends origin id) : id ∈ descendants :=
  (hdescendants id).2 h.to_reflTransGen

namespace CascadedTo

/-- The cascade leaves superseded revisions and the origin's alone. -/
theorem condemn_of_kept (h : row.artifactID = origin ∨ store.Superseded row) :
    store.condemn origin descendants row = row :=
  if_neg fun hcondemned => h.elim hcondemned.2.1 hcondemned.2.2.2.1

section

variable (h : store.CascadedTo origin descendants current)

include h

theorem mem_of_kept (hrow : row ∈ store.revisions.rows)
    (hkept : row.artifactID = origin ∨ store.Superseded row) : row ∈ current.revisions.rows := by
  rw [h.revisions]
  exact mem_map.2 ⟨row, hrow, condemn_of_kept hkept⟩

theorem isQuarantined_iff
    (hid : id ∈ descendants) : current.IsQuarantined id ↔ store.EndsQuarantined origin id := by
  rw [IsQuarantined, latestRevision_map (fun row => (condemn_keys row).2) h.revisions]
  simp only [Option.map_eq_some_iff, exists_exists_and_eq_and]
  refine exists_congr fun row => and_congr_right fun hlatest => ?_
  obtain ⟨-, rfl, hlast⟩ := latestRevision_eq_some_iff.1 hlatest
  unfold condemn
  split_ifs with hcondemned
  · obtain ⟨-, hne, hlive, -, hreach⟩ := hcondemned
    exact iff_of_true rfl (.inr ⟨hne, hlive, hreach⟩)
  · refine (or_iff_left ?_).symm
    rintro ⟨hne, hlive, hreach⟩
    exact hcondemned ⟨hid, hne, hlive, hlast, hreach⟩

/-- A complete cascade leaves what it quarantines spent. -/
theorem spent (hcomplete : store.CascadeComplete origin) (hdescends : store.Descends origin id)
    (hid : id ∈ descendants) (hquarantined : current.IsQuarantined id) : current.Spent id := by
  have hends := (h.isQuarantined_iff hid).1 hquarantined
  refine ⟨?_, fun moved hmoved hartifact hlater => ?_⟩
  · obtain ⟨row, hlatest, hmaturity⟩ := hquarantined
    exact ⟨row, hlatest, by rw [hmaturity]; rfl⟩
  · rw [h.revisions] at hmoved
    obtain ⟨row, hrow, rfl⟩ := mem_map.1 hmoved
    rw [h.superseded_iff] at hlater
    have hkept : store.condemn origin descendants row = row := condemn_of_kept (.inr hlater)
    rw [hkept] at hartifact ⊢
    rw [h.corroborated_iff]
    exact hcomplete.dormant row hrow (hartifact ▸ hdescends) (hartifact ▸ hends) hlater

theorem revisionsOf_eq (hdescendants : ∀ id, id ∈ descendants ↔ store.InClosure origin id)
    (hid : ¬store.Descends origin id) : current.revisionsOf id = store.revisionsOf id := by
  have hpredicate : ((fun row : MemoryRevisionRow => row.artifactID == id) ∘
      store.condemn origin descendants) = fun row => row.artifactID == id := by
    funext row
    rw [Function.comp_apply, (condemn_keys row).2.1]
  rw [revisionsOf, h.revisions, filter_map, hpredicate]
  refine (map_congr_left fun row hrow => ?_).trans (map_id _)
  have hartifact : row.artifactID = id := by simpa using (mem_filter.1 hrow).2
  refine if_neg fun hcondemned => hid ?_
  rw [← hartifact]
  exact (Relation.reflTransGen_iff_eq_or_transGen.1
    ((hdescendants _).1 hcondemned.1)).resolve_left hcondemned.2.1

end

end CascadedTo

/-- **When a cascade achieves its purpose.** For every sound store and every successful cascade, no
authority is left standing exactly if the superseded revisions of the descendants, and the origin
when it descends from itself, had none and can gain none. -/
theorem noAuthorityStands_iff (env : Surroundings) (clock : MemoryArtifactID → Int)
    (input : CascadeMemoryArtifactInvalidation) (store current : MemoryStore)
    (outcome : MemoryArtifactCascadeOutcome) (hsound : store.Sound)
    (hcascade : cascadeMemoryArtifactInvalidation env clock input store = (.ok outcome, current)) :
    NoAuthorityStands env store input.originArtifactID current ↔
      store.CascadeComplete input.originArtifactID := by
  obtain ⟨descendants, hdescendants, h⟩ := cascade_ok hsound hcascade
  constructor
  · intro hpurpose
    refine ⟨fun row hrow hdescends hlive hkept => ?_, fun row hrow hdescends hends hlater => ?_⟩
    · exact hpurpose.descendants _ hdescends hlive row (h.mem_of_kept hrow hkept) rfl
    · have hmem := h.mem_of_kept hrow (.inr hlater)
      have hquarantined :=
        (h.isQuarantined_iff (mem_descendants_of_descends hdescendants hdescends)).2 hends
      refine ⟨hpurpose.later _ hdescends hquarantined current .refl row hmem rfl, ?_⟩
      -- a candidate with evidence could be promoted
      rintro ⟨hcandidate, hcorroborated⟩
      obtain ⟨record, final, hok, hpromoted⟩ := transitionMemoryArtifactMaturity_promotes env
        h.sound hmem hcandidate (h.corroborated_iff.2 hcorroborated)
      have hstep : LaterStep env current final := ⟨0, .inr ⟨_, record, hok⟩⟩
      exact nomatch hpurpose.later _ hdescends hquarantined final (.single hstep) _ hpromoted rfl
  · intro hcomplete
    refine ⟨fun id hdescends hlive moved hmoved hid => ?_,
      fun id hid => h.revisionsOf_eq hdescendants hid,
      fun id hdescends hquarantined final hlater row hrow hid => ?_⟩
    · have hmem := mem_descendants_of_descends hdescendants hdescends
      rw [h.revisions] at hmoved
      obtain ⟨row, hrow, rfl⟩ := mem_map.1 hmoved
      rw [(condemn_keys row).2.1] at hid
      subst hid
      by_cases hkept : row.artifactID = input.originArtifactID ∨ store.Superseded row
      · rw [CascadedTo.condemn_of_kept hkept]
        exact hcomplete.standing row hrow hdescends hlive hkept
      · unfold condemn
        split_ifs with hcondemned
        · rfl
        · rw [not_or] at hkept
          have hreach : ¬row.maturity.canReachAuthority = true := fun hreach =>
            hcondemned ⟨hmem, hkept.1, hlive, hkept.2, hreach⟩
          rw [MaturityState.canReachAuthority_iff, not_or] at hreach
          exact Bool.not_eq_true _ ▸ hreach.2
    · have hspent := h.spent hcomplete hdescends
        (mem_descendants_of_descends hdescendants hdescends) hquarantined
      exact (hspent.later h.sound hlater).1.noAuthority hrow hid

end Purpose

/-- Surroundings that accept everything. -/
def sampleSurroundings : Surroundings where
  projectExists _ := true
  repositoryProject _ := some sampleProjectID
  evidenceProject _ := some sampleProjectID
  episodeProject _ := some sampleProjectID
  validateContent _ := .ok ()
  canonicalMemoryArtifactContent content := .ok (content.payload, content.payload)

/-- A repository. -/
def sampleRepositoryID : RepositoryID :=
  ⟨"repo_0190a5b0-0000-7000-8000-000000000041", .inr (by decide)⟩

/-- The lesson's revision. -/
def sampleLessonRevisionID : MemoryArtifactRevisionID :=
  ⟨"mrv_0190a5b0-0000-7000-8000-000000000044", .inr (by decide)⟩

/-- Its correction. -/
def sampleCorrectedRevisionID : MemoryArtifactRevisionID :=
  ⟨"mrv_0190a5b0-0000-7000-8000-000000000045", .inr (by decide)⟩

/-- A content. -/
def sampleContent : MemoryArtifactContent := ⟨.repositoryFact, sampleRepositoryID, "fact"⟩

/-- Run operations, each of which has to succeed. -/
def runOperations (env : Surroundings) (operations : List MemoryOperation) (store : MemoryStore) :
    Result MemoryStore :=
  operations.foldlM (fun store operation => operation.apply env store) store

theorem MemoryReachable.run {env : Surroundings} {operations : List MemoryOperation}
    {store store' : MemoryStore} (h : MemoryReachable env store)
    (hrun : runOperations env operations store = .ok store') : MemoryReachable env store' :=
  foldlM_keeps (fun _ operation _ hnext hs => hs.step ⟨operation, hnext⟩) hrun h

/-- A root, and a lesson that derives from it and was promoted for corroborated evidence. -/
def promotedOperations : List MemoryOperation :=
  [.create 0
      ⟨sampleRootID, ⟨"mrv_0190a5b0-0000-7000-8000-000000000043", .inr (by decide)⟩,
        sampleProjectID, none, sampleContent, "root"⟩,
    .create 1
      ⟨sampleLessonID, sampleLessonRevisionID, sampleProjectID, none, sampleContent, "lesson"⟩,
    .deriveFrom 2 sampleLessonID sampleRootID,
    .support 3 sampleLessonRevisionID
      ⟨⟨"evd_0190a5b0-0000-7000-8000-000000000042", .inr (by decide)⟩,
        .declared .userApproval, .declared .corroborated⟩,
    .transition 4 (promotion sampleLessonRevisionID)]

/-- The store with the promoted lesson. -/
def promotedLesson : MemoryStore :=
  settled empty (runOperations sampleSurroundings promotedOperations empty)

/-- The same, after the promoted revision was corrected. -/
def correctedLesson : MemoryStore :=
  settled empty (runOperations sampleSurroundings
    (promotedOperations ++
      [.correct 5 ⟨sampleLessonRevisionID, sampleCorrectedRevisionID, sampleContent, "corrected"⟩])
    empty)

/-- The cascade from the root. -/
def sampleCascade : CascadeMemoryArtifactInvalidation where
  projectID := sampleProjectID
  originArtifactID := sampleRootID
  reasonKind := .declared .other
  detailRedacted := ""
  idempotencyKeyPrefix := ""

theorem reachable_settled {operations : List MemoryOperation}
    (h : (runOperations sampleSurroundings operations empty).isOk = true) :
    MemoryReachable sampleSurroundings
      (settled empty (runOperations sampleSurroundings operations empty)) := by
  have hempty : MemoryReachable sampleSurroundings empty := .init rfl
  refine @MemoryReachable.run _ operations _ _ hempty ?_
  cases hrun : runOperations sampleSurroundings operations empty with
  | ok store => rfl
  | error e => simp [hrun, Except.isOk, Except.toBool] at h

/-- A validated revision that was corrected before the cascade keeps its authority. -/
theorem corrected_authority_stands :
    MemoryReachable sampleSurroundings correctedLesson ∧
      correctedLesson.Descends sampleRootID sampleLessonID ∧ correctedLesson.Live sampleLessonID ∧
      (cascadeMemoryArtifactInvalidation sampleSurroundings (fun _ => 6) sampleCascade
        correctedLesson).1 =
          .ok ⟨[sampleCorrectedRevisionID], [sampleLessonID], [], [], 2, true⟩ ∧
      ∃ row ∈ (cascadeMemoryArtifactInvalidation sampleSurroundings (fun _ => 6) sampleCascade
          correctedLesson).2.revisions.rows,
        row.artifactID = sampleLessonID ∧ row.maturity = .validated := by
  have hderives : ∃ row ∈ correctedLesson.derivedFrom.rows,
      row.artifactID = sampleLessonID ∧ row.ancestorID = sampleRootID := by decide
  exact ⟨reachable_settled (by decide), .single hderives, by decide,
    by decide +kernel, by decide +kernel⟩

theorem promotedLesson_cascade :
    (cascadeMemoryArtifactInvalidation sampleSurroundings (fun _ => 6) sampleCascade
        promotedLesson).1 =
        .ok ⟨[sampleLessonRevisionID], [sampleLessonID], [], [], 2, true⟩ ∧
      NoAuthorityStands sampleSurroundings promotedLesson sampleRootID
        (cascadeMemoryArtifactInvalidation sampleSurroundings (fun _ => 6) sampleCascade
          promotedLesson).2 := by
  refine (and_iff_left_of_imp fun hok => ?_).2 (by decide +kernel)
  have hreachable : MemoryReachable sampleSurroundings promotedLesson :=
    reachable_settled (by decide)
  have hlatest : ∀ row ∈ promotedLesson.revisions.rows, ¬promotedLesson.Superseded row := by
    decide
  have horigin : ∀ row ∈ promotedLesson.revisions.rows, row.artifactID = sampleRootID →
      row.maturity.isAuthorityBearing = false := by decide
  refine (noAuthorityStands_iff sampleSurroundings (fun _ => 6) sampleCascade promotedLesson _ _
    hreachable.sound (Prod.ext hok rfl)).2 ⟨?_, ?_⟩
  · intro row hrow _ _ hkept
    exact hkept.elim (horigin row hrow) fun hlater => absurd hlater (hlatest row hrow)
  · exact fun row hrow _ _ hlater => absurd hlater (hlatest row hrow)

end MemoryStore

end Codeflux.Storage
