import Codeflux.Domain.Identity
import Codeflux.Domain.States

/-!
# Governed maturity of memory artifacts

Two of the maturities let a revision influence future work, and a revision enters one of them only
with a proof of authority earned for exactly this revision from corroborated evidence.
-/

namespace Codeflux.Domain

open Library

/-! ### Maturity -/

/-- The governed, revocable authority of a revision. -/
inductive MaturityState
  | candidate | validated | preferredForExperiment | quarantined | invalidated | retired
deriving DecidableEq

instance : Declared MaturityState where
  all := [.candidate, .validated, .preferredForExperiment, .quarantined, .invalidated, .retired]
  text
    | .candidate => "candidate"
    | .validated => "validated"
    | .preferredForExperiment => "preferred-for-experiment"
    | .quarantined => "quarantined"
    | .invalidated => "invalidated"
    | .retired => "retired"

instance : LawfulBEq (MaturityState × MaturityState) := inferInstance

/-- The governed transitions. -/
def maturityTransitions : List (MaturityState × MaturityState) :=
  [(.candidate, .validated), (.candidate, .preferredForExperiment), (.candidate, .quarantined),
    (.candidate, .invalidated), (.candidate, .retired),
    (.validated, .preferredForExperiment), (.validated, .quarantined), (.validated, .invalidated),
    (.validated, .retired),
    (.preferredForExperiment, .validated), (.preferredForExperiment, .quarantined),
    (.preferredForExperiment, .invalidated), (.preferredForExperiment, .retired),
    (.quarantined, .invalidated), (.quarantined, .retired)]

namespace MaturityState

/-- The states that let an artifact influence future work. -/
def isAuthorityBearing : MaturityState → Bool
  | .validated | .preferredForExperiment => true
  | _ => false

/-- Does the table have a transition from this state to one that bears authority? -/
def canReachAuthority (state : MaturityState) : Bool :=
  [validated, preferredForExperiment].any fun target => (state, target) ∈ maturityTransitions

theorem canReachAuthority_iff {state : MaturityState} :
    state.canReachAuthority = true ↔ state = .candidate ∨ state.isAuthorityBearing = true := by
  cases state <;> decide

variable {source target : MaturityState}

section

variable (h : (source, target) ∈ maturityTransitions)

include h

theorem isAuthorityBearing_of_transition (ht : target.isAuthorityBearing = true) :
    source.canReachAuthority = true := by
  cases source <;> cases target <;> first | rfl | exact absurd h (by decide) | cases ht

/-- Authority that is out of reach stays out of reach. -/
theorem canReachAuthority_of_transition (hs : source.canReachAuthority = false) :
    target.canReachAuthority = false := by
  cases source <;> cases target <;> first | rfl | exact absurd h (by decide) | cases hs

theorem ne_candidate_of_transition : target ≠ .candidate := by
  rintro rfl
  cases source <;> exact absurd h (by decide)

end

end MaturityState

/-- A state that was read as text bears authority only if it is a declared one that does. -/
def isAuthorityBearing : OpenEnum MaturityState → Bool
  | .declared state => state.isAuthorityBearing
  | .undeclared _ _ => false

/-! ### Evidence -/

/-- Where the evidence for an artifact came from. -/
inductive EvidenceSourceKind
  | agentSelfReport | automatedValidationRun | userApproval | independentReplayComparison
  | mechanicalRuleCheck | regressionOracleRun
deriving DecidableEq

instance : Declared EvidenceSourceKind where
  all := [.agentSelfReport, .automatedValidationRun, .userApproval, .independentReplayComparison,
    .mechanicalRuleCheck, .regressionOracleRun]
  text
    | .agentSelfReport => "agent-self-report"
    | .automatedValidationRun => "automated-validation-run"
    | .userApproval => "user-approval"
    | .independentReplayComparison => "independent-replay-comparison"
    | .mechanicalRuleCheck => "mechanical-rule-check"
    | .regressionOracleRun => "regression-oracle-run"

/-- Is the evidence corroborated? -/
inductive EvidenceStrength
  | none | corroborated
deriving DecidableEq

instance : Declared EvidenceStrength where
  all := [.none, .corroborated]
  text
    | .none => "none"
    | .corroborated => "corroborated"

/-- One piece of evidence for a claim of maturity. -/
structure SupportingEvidenceRecord where
  evidence : EvidenceID
  source : OpenEnum EvidenceSourceKind
  strength : OpenEnum EvidenceStrength

/-- Self-report never claims to be corroborated. -/
def SupportingEvidenceRecord.validate (value : SupportingEvidenceRecord) : Result Unit := do
  ensure (value.evidence.isZero = false)
    (.value "memory.supporting_evidence.evidence" "must not be empty")
  ensure value.source.isValid (.value "memory.supporting_evidence.source" "is not declared")
  ensure value.strength.isValid (.value "memory.supporting_evidence.strength" "is not declared")
  ensure (¬(value.source = .declared .agentSelfReport ∧ value.strength ≠ .declared .none))
    (.value "memory.supporting_evidence.strength"
      "agent self-report evidence must always carry evidence_strength none")

theorem SupportingEvidenceRecord.validate_ok_iff {value : SupportingEvidenceRecord} {u : Unit} :
    value.validate = .ok u ↔
      value.evidence.isZero = false ∧ value.source.isValid = true ∧ value.strength.isValid = true ∧
        ¬(value.source = .declared .agentSelfReport ∧ value.strength ≠ .declared .none) := by
  simp [SupportingEvidenceRecord.validate]

/-- What corroborated evidence earns: authority for one revision. The source keeps its fields
unexported, so only `authorizeMemoryArtifactMaturityGrant` makes one that is not zero. -/
structure AuthorityProof where
  revision : MemoryArtifactRevisionID
  evidence : List SupportingEvidenceRecord

namespace AuthorityProof

/-- No authority. -/
def zero : AuthorityProof := ⟨.zero, []⟩

/-- Does it authorize a revision? -/
def isAuthorized (proof : AuthorityProof) : Bool :=
  !proof.revision.isZero && !proof.evidence.isEmpty

/-- Does it authorize this revision? -/
def authorizesRevision (proof : AuthorityProof) (revision : MemoryArtifactRevisionID) : Bool :=
  proof.isAuthorized && proof.revision == revision

end AuthorityProof

/-- The proof that evidence earns. -/
def authorizeMemoryArtifactMaturityGrant (revision : MemoryArtifactRevisionID)
    (evidence : List SupportingEvidenceRecord) : Result AuthorityProof := do
  ensure (revision.isZero = false)
    (.value "memory.maturity.evidence.revision"
      "an authority grant requires the revision identity it authorizes")
  ensure (evidence ≠ [])
    (.value "memory.maturity.evidence"
      "an authority grant requires at least one supporting evidence record")
  evidence.forM SupportingEvidenceRecord.validate
  ensure (∃ record ∈ evidence, record.strength = .declared .corroborated)
    (.value "memory.maturity.evidence"
      "an authority grant requires at least one corroborated, non-self-report evidence record")
  return ⟨revision, evidence⟩

theorem authorizeMemoryArtifactMaturityGrant_ok_iff {revision : MemoryArtifactRevisionID}
    {evidence : List SupportingEvidenceRecord} {proof : AuthorityProof} :
    authorizeMemoryArtifactMaturityGrant revision evidence = .ok proof ↔
      revision.isZero = false ∧ (∀ record ∈ evidence, record.validate = .ok ()) ∧
        (∃ record ∈ evidence, record.strength = .declared .corroborated) ∧
        proof = ⟨revision, evidence⟩ := by
  simp only [authorizeMemoryArtifactMaturityGrant, run_ok_iff, Unique.exists_iff, forM_ok_iff]
  constructor
  · rintro ⟨hrevision, -, hvalid, hcorroborated, rfl⟩
    exact ⟨hrevision, hvalid, hcorroborated, rfl⟩
  · rintro ⟨hrevision, hvalid, hcorroborated, rfl⟩
    refine ⟨hrevision, ?_, hvalid, hcorroborated, rfl⟩
    rintro rfl
    obtain ⟨record, hmem, -⟩ := hcorroborated
    exact absurd hmem List.not_mem_nil

/-! ### Transitions -/

/-- A proof is missing. -/
def errAuthorityProofRequired : Failure :=
  .new "memory artifact maturity requires an authorized evidence proof"
/-- The proof is for another revision. -/
def errAuthorityProofMismatch : Failure :=
  .new "memory artifact maturity authority proof does not match the revision it is applied to"

/-- A transition with its proof. -/
structure MaturityTransitionRequest where
  (source target : OpenEnum MaturityState)
  revision : MemoryArtifactRevisionID
  proof : AuthorityProof

/-- Check a transition. -/
def validateMemoryArtifactMaturityTransition (request : MaturityTransitionRequest) :
    Result Unit := do
  validateTransition "memory artifact maturity" request.source request.target maturityTransitions
  if isAuthorityBearing request.target then
    ensure request.proof.isAuthorized
      (.transition "memory artifact maturity" request.source.toText request.target.toText
        errAuthorityProofRequired)
    ensure (request.proof.authorizesRevision request.revision)
      (.transition "memory artifact maturity" request.source.toText request.target.toText
        errAuthorityProofMismatch)

/-- A transition is accepted when the table has it, and with a proof for the revision when it leads
to authority. -/
theorem validateMemoryArtifactMaturityTransition_ok_iff {request : MaturityTransitionRequest}
    {u : Unit} :
    validateMemoryArtifactMaturityTransition request = .ok u ↔
      ∃ a b, request.source = .declared a ∧ request.target = .declared b ∧
        (a, b) ∈ maturityTransitions ∧
        (b.isAuthorityBearing = true →
          request.proof.authorizesRevision request.revision = true) := by
  simp only [validateMemoryArtifactMaturityTransition, bind_ok_iff, validateTransition_ok_iff,
    Unique.exists_iff]
  constructor
  · rintro ⟨⟨a, b, hsource, htarget, hmem⟩, hrest⟩
    refine ⟨a, b, hsource, htarget, hmem, fun hb => ?_⟩
    rw [htarget, if_pos (show isAuthorityBearing (.declared b) = true from hb)] at hrest
    simp only [run_ok_iff] at hrest
    exact hrest.choose_spec.2
  · rintro ⟨a, b, hsource, htarget, hmem, hproof⟩
    refine ⟨⟨a, b, hsource, htarget, hmem⟩, ?_⟩
    split_ifs with hb
    · rw [htarget] at hb
      have hauthorizes := hproof hb
      have hauthorized : request.proof.isAuthorized = true :=
        (Bool.and_eq_true_iff.1 hauthorizes).1
      rw [ensure_of hauthorized, ok_bind, ensure_of hauthorizes]
    · rfl

end Codeflux.Domain
