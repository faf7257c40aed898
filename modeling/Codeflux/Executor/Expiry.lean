import Codeflux.Executor.Policy

/-!
# Expiry, denials and narrower policies

The authority of a policy expires with its task, its denials win over every grant, and a policy that
allows less permits no more. The second and third hold of every policy. The first does not: a write
inside the worktree is allowed before it is looked at whether the task is active.
-/

namespace Codeflux.Executor

open Library Go Domain

variable {host : Host} {request : ToolRequest} {policy narrow : PermissionPolicy}

/-- A policy of the same task and worktree with fewer grants and approved commands, more denials,
more used grants, or a task that is no longer active. -/
structure Narrower (narrow policy : PermissionPolicy) : Prop where
  taskID : narrow.taskID = policy.taskID
  worktreePath : narrow.worktreePath = policy.worktreePath
  taskActive : narrow.taskActive = true → policy.taskActive = true
  approvedCommands : narrow.approvedCommands ⊆ policy.approvedCommands
  denials : policy.denials ⊆ narrow.denials
  grants : ∀ grant ∈ narrow.grants, ∃ before ∈ policy.grants,
    grant = { before with used := grant.used } ∧ (before.used = true → grant.used = true)

/-- The laws of a policy, for the decision about one request. -/
structure AuthorityLaws (host : Host) (request : ToolRequest) (policy : PermissionPolicy) :
    Prop where
  /-- Without an active task there is no task-scoped authority, and only reads are automatic. -/
  expires : policy.taskActive = false →
    ∃ decision, classifyAuthority host request policy = .ok decision ∧
      decision.outcome ≠ .taskScoped ∧
      (decision.outcome = .automatic →
        requiredAuthority host request = AuthorityClass.automaticRead)
  /-- A denial of the request's capability, for its action or its scope, decides. -/
  denies : (∃ denial ∈ policy.denials, denial.taskID = request.taskID ∧
      denial.capability = requiredAuthority host request ∧
      (denial.scopeHash = actionSHA256 host request ∨
        denial.scopeHash = capabilityScopeHash host request (requiredAuthority host request))) →
    ∃ decision, classifyAuthority host request policy = .ok decision ∧ decision.outcome = .denied
  /-- A narrower policy permits nothing that this one does not. -/
  narrows : ∀ narrow, Narrower narrow policy →
    ∃ decision narrowed, classifyAuthority host request policy = .ok decision ∧
      classifyAuthority host request narrow = .ok narrowed ∧
      (decision.outcome.permitted = false → narrowed.outcome.permitted = false)

/-- A write inside the worktree that no denial covers, after the task has stopped being active. -/
def WritesAfterExpiry (host : Host) (request : ToolRequest) (policy : PermissionPolicy) : Prop :=
  policy.taskActive = false ∧ requiredAuthority host request = AuthorityClass.taskWrite ∧
    withinWorktree request.workingDirectory policy.worktreePath = true ∧
    ∀ denial ∈ policy.denials, denial.covers host request = false

theorem allows_mono {grant before : PermissionGrant}
    (hgrant : grant = { before with used := grant.used })
    (hused : before.used = true → grant.used = true) (h : grant.allows request = true) :
    before.allows request = true := by
  rw [hgrant] at h
  simp only [PermissionGrant.allows, Bool.and_eq_true, Bool.not_eq_true', Bool.and_eq_false_iff]
    at h ⊢
  obtain ⟨⟨hpattern, hfresh⟩, hmode⟩ := h
  refine ⟨⟨hpattern, hfresh.imp_right ?_⟩, hmode⟩
  intro hgrantFresh
  exact Bool.eq_false_iff.2 fun hbefore => Bool.eq_false_iff.1 hgrantFresh (hused hbefore)

/-! ### The laws that always hold -/

/-- **A narrower policy permits no more.** -/
theorem permitted_of_narrower (hnarrow : Narrower narrow policy)
    (h : (authorityDecision host request narrow).outcome.permitted = true) :
    (authorityDecision host request policy).outcome.permitted = true := by
  rw [permitted_iff] at h ⊢
  obtain ⟨hdenials, hrule⟩ := h
  constructor
  · rw [List.any_eq_false] at hdenials ⊢
    intro denial hdenial
    exact hdenials denial (hnarrow.denials hdenial)
  · rw [hnarrow.worktreePath] at hrule
    refine hrule.imp_right (Or.imp_right (And.imp hnarrow.taskActive (Or.imp ?_ ?_)))
    · simp only [List.any_eq_true]
      rintro ⟨approved, hmem, hequal⟩
      exact ⟨approved, hnarrow.approvedCommands hmem, hequal⟩
    · simp only [List.any_eq_true]
      rintro ⟨grant, hmem, hallows⟩
      obtain ⟨before, hbefore, hgrant, hused⟩ := hnarrow.grants grant hmem
      exact ⟨before, hbefore, allows_mono hgrant hused hallows⟩

theorem taskScoped_of_writesAfterExpiry (h : WritesAfterExpiry host request policy) :
    (authorityDecision host request policy).outcome = .taskScoped := by
  obtain ⟨-, hwrite, hwithin, hdenials⟩ := h
  have hany : ¬policy.denials.any (PermissionDenial.covers host request) = true := by
    simpa using hdenials
  rw [authorityDecision, if_neg hany, if_neg (by rw [hwrite]; decide), if_pos ⟨hwrite, hwithin⟩]
  rfl

theorem outcome_of_expired (hactive : policy.taskActive = false)
    (h : ¬WritesAfterExpiry host request policy) :
    (authorityDecision host request policy).outcome = .denied ∨
      ((authorityDecision host request policy).outcome = .automatic ∧
        requiredAuthority host request = AuthorityClass.automaticRead) := by
  unfold authorityDecision
  split_ifs with hdenied hread hwrite
  · exact .inl rfl
  · exact .inr ⟨rfl, hread⟩
  · refine absurd ⟨hactive, hwrite.1, hwrite.2, ?_⟩ h
    simpa using hdenied
  · exact .inl rfl

/-- **The laws of a task's authority hold exactly when the request is not a write inside the
worktree that is made after the task has stopped being active.** -/
theorem authorityLaws_iff (hvalid : validateToolRequest request = .ok ())
    (htask : request.taskID = policy.taskID) :
    AuthorityLaws host request policy ↔ ¬WritesAfterExpiry host request policy := by
  have hdecided : classifyAuthority host request policy =
      .ok (authorityDecision host request policy) := classifyAuthority_of_valid hvalid htask
  constructor
  · intro laws hexpired
    obtain ⟨decision, hdecision, hscoped, -⟩ := laws.expires hexpired.1
    rw [hdecided, Except.ok.injEq] at hdecision
    rw [← hdecision, taskScoped_of_writesAfterExpiry hexpired] at hscoped
    exact hscoped rfl
  · intro hexpired
    refine ⟨fun hactive => ⟨_, hdecided, ?_⟩, ?_, fun narrow hnarrow => ?_⟩
    · obtain hdenied | ⟨hautomatic, hread⟩ := outcome_of_expired hactive hexpired
      · simp [hdenied]
      · simp [hautomatic, hread]
    · rintro ⟨denial, hmem, hcovers⟩
      have hany : policy.denials.any (PermissionDenial.covers host request) = true :=
        List.any_eq_true.2 ⟨denial, hmem,
          by simpa [PermissionDenial.covers, and_assoc] using hcovers⟩
      exact ⟨_, hdecided, by rw [authorityDecision, if_pos hany]; rfl⟩
    · refine ⟨_, _, hdecided, classifyAuthority_of_valid hvalid (htask.trans hnarrow.taskID.symm),
        fun hrefused => ?_⟩
      rw [Bool.eq_false_iff] at hrefused ⊢
      exact fun hpermitted => hrefused (permitted_of_narrower hnarrow hpermitted)

/-- A host whose digest of a text is the text itself. -/
def plainHost : Host where
  sha256 := id
  toLower := id
  quote := fun _ => ""

/-- A write of one file in the directory of a task. -/
def sampleWrite : ToolRequest where
  id := "request-1"
  taskID := ⟨"tsk_0190a5b0-0000-7000-8000-000000000031", .inr (by decide)⟩
  runID := ⟨"run_0190a5b0-0000-7000-8000-000000000032", .inr (by decide)⟩
  name := ToolName.applyEdit
  arguments := [⟨"path", "main.go", false⟩, ⟨"content", "package main", false⟩]
  workingDirectory := "/work/task"
  timeout := 60 * 10 ^ 9
  claimedAuthority := AuthorityClass.taskWrite
  expectedSideEffects := [.declared .taskWorktreeWrite]
  idempotencyKey := "key-1"
  requester := "agent"

/-- The policy of the same task, active or not. -/
def samplePolicy (taskActive : Bool) : PermissionPolicy where
  taskID := sampleWrite.taskID
  worktreePath := "/work/task"
  taskActive

theorem sampleWrite_valid : validateToolRequest sampleWrite = .ok () := by decide

theorem activeWrite_lawful :
    (validateToolRequest sampleWrite = .ok () ∧
        sampleWrite.taskID = (samplePolicy true).taskID) ∧
      AuthorityLaws plainHost sampleWrite (samplePolicy true) :=
  ⟨⟨sampleWrite_valid, rfl⟩,
    (authorityLaws_iff sampleWrite_valid rfl).2 fun h => Bool.noConfusion h.1⟩

/-- The task has ended, and a write into its worktree is still task-scoped. -/
theorem expiredWrite_taskScoped :
    validateToolRequest sampleWrite = .ok () ∧ (samplePolicy false).taskActive = false ∧
      ∃ decision, classifyAuthority plainHost sampleWrite (samplePolicy false) = .ok decision ∧
        decision.outcome = .taskScoped := by
  refine ⟨sampleWrite_valid, rfl, _, classifyAuthority_of_valid sampleWrite_valid rfl, ?_⟩
  exact taskScoped_of_writesAfterExpiry
    ⟨rfl, by decide, by decide, by simp [samplePolicy]⟩

end Codeflux.Executor
