import Mathlib.Data.List.Sort
import Mathlib.Data.String.Basic
import Codeflux.Executor.Protocol

/-!
# Permission policy of a task

The authority a tool request needs is derived from its tool, its ordered arguments and its declared
effects. The policy then decides: denials first, automatic reads, writes inside the worktree, and
after these the approved commands and grants that last while the task is active.
-/

namespace Codeflux.Executor

open Library Go Domain

/-! ### What a request does -/

/-- An exact action and its scope. -/
structure ActionPattern where
  taskID : TaskID
  tool : OpenEnum ToolName
  arguments : List String
  workingDirectory : String
  effects : List (OpenEnum SideEffect)

/-- The values of the arguments. -/
def argumentValues (arguments : List ToolArgument) : List String := arguments.map (·.value)

/-- The effects in the order of their texts: `slices.Sort`. -/
def sortEffects (effects : List (OpenEnum SideEffect)) : List (OpenEnum SideEffect) :=
  effects.insertionSort fun a b => a.toText ≤ b.toText

/-- What a request does. -/
def actionPattern (request : ToolRequest) : ActionPattern where
  taskID := request.taskID
  tool := request.name
  arguments := argumentValues request.arguments
  workingDirectory := clean request.workingDirectory
  effects := sortEffects request.expectedSideEffects

/-- The same action, up to the spelling of the working directory. -/
def equalActionPattern (left right : ActionPattern) : Bool :=
  left.taskID = right.taskID && left.tool = right.tool &&
    clean left.workingDirectory = clean right.workingDirectory &&
    left.arguments = right.arguments && left.effects = right.effects

section Hash

variable (host : Host)

/-- The hash of an action. -/
def hashActionPattern (pattern : ActionPattern) : String :=
  host.sha256 <| concat <|
    [pattern.taskID.value, "\x00", pattern.tool.toText, "\x00", pattern.workingDirectory] ++
      pattern.arguments.flatMap (fun argument => ["\x00", argument]) ++
      pattern.effects.flatMap (fun effect => ["\x00", effect.toText])

/-- The action identity that is recorded with an authority decision. -/
def actionSHA256 (request : ToolRequest) : String := hashActionPattern host (actionPattern request)

/-- The hash of a capability's scope. -/
def capabilityScopeHash (request : ToolRequest) (authority : OpenEnum AuthorityClass) : String :=
  host.sha256 (request.taskID.value ++ "\x00" ++ authority.toText ++ "\x00" ++
    clean request.workingDirectory)

end Hash

/-! ### The authority a request needs -/

/-- The authority a command needs. -/
def classifyCommandArguments (host : Host) : List String → AuthorityClass
  | [] => .privileged
  | command :: arguments =>
    let executable := host.toLower (lastElement command)
    let joined := host.toLower (String.intercalate "\x00" arguments)
    if executable ∈ ["curl", "wget", "ssh", "scp"] then .network
    else if (executable = "go" ∧ hasPrefix joined "get\x00") ∨
        (executable = "npm" ∧ containsText joined "install") ∨
        (executable = "pip" ∧ containsText joined "install") then .dependencyInstall
    else if executable = "rm" ∨ executable = "rmdir" ∨
        (executable = "git" ∧
          (hasPrefix joined "reset\x00--hard" ∨ hasPrefix joined "clean\x00")) then .destructive
    else if executable ∈ ["sudo", "doas", "runas"] then .privileged
    else if executable = "gh" ∧ (containsText joined "issue\x00create" ∨
        containsText joined "pr\x00create" ∨ containsText joined "release\x00create") then
      .externalCommunication
    else .privileged

/-- The effects that need an authority of their own, the strongest first. -/
def effectAuthorities : List (SideEffect × AuthorityClass) :=
  [(.externalCommunication, .externalCommunication), (.credentialAccess, .credential),
   (.privileged, .privileged), (.destructive, .destructive), (.externalWrite, .externalWrite),
   (.dependencyInstall, .dependencyInstall), (.network, .network)]

/-- The default authority of a tool. It is the empty text for a tool outside the catalog. -/
def descriptorAuthority (name : OpenEnum ToolName) : OpenEnum AuthorityClass :=
  match toolDescriptor? name with
  | some descriptor => descriptor.defaultAuthority
  | none => .ofText ""

/-- The authority a request needs. -/
def requiredAuthority (host : Host) (request : ToolRequest) : OpenEnum AuthorityClass :=
  match effectAuthorities.find? fun candidate =>
      .declared candidate.1 ∈ request.expectedSideEffects with
  | some candidate => candidate.2
  | none =>
    if request.name = ToolName.runCommand ∨ request.name = ToolName.pluginRPC then
      classifyCommandArguments host (argumentValues request.arguments)
    else if request.name ∈ [ToolName.test, .build, .format, .staticAnalysis].map
        OpenEnum.declared then AuthorityClass.privileged
    else if .declared .taskWorktreeWrite ∈ request.expectedSideEffects then
      AuthorityClass.taskWrite
    else descriptorAuthority request.name

theorem requiredAuthority_isValid (host : Host) {request : ToolRequest}
    (h : request.name.isValid = true) : (requiredAuthority host request).isValid = true := by
  unfold requiredAuthority
  split
  · rfl
  · split_ifs
    · rfl
    · rfl
    · rfl
    · obtain ⟨name, hname⟩ := OpenEnum.isValid_iff.1 h
      obtain ⟨descriptor, hfound⟩ := Option.isSome_iff_exists.1 (toolDescriptor?_isSome name)
      rw [descriptorAuthority, hname, hfound]
      rfl

/-! ### Policies and decisions -/

/-- The complete authority decision. -/
inductive PolicyOutcome
  | automatic | taskScoped | approvalRequired | denied

/-- May the action be executed under this decision? -/
def PolicyOutcome.permitted : PolicyOutcome → Bool
  | .automatic | .taskScoped => true
  | .approvalRequired | .denied => false

/-- A grant for one execution, or for the rest of the active task. -/
inductive GrantMode
  | allowOnce | allowForTask
deriving DecidableEq

instance : Declared GrantMode where
  all := [.allowOnce, .allowForTask]
  text
    | .allowOnce => "allow-once"
    | .allowForTask => "allow-for-task"

/-- One exact grant. -/
structure PermissionGrant where
  id : String
  pattern : ActionPattern
  mode : OpenEnum GrantMode
  used : Bool := false

/-- A denial, which keeps other tools from the same capability and scope. -/
structure PermissionDenial where
  taskID : TaskID
  capability : OpenEnum AuthorityClass
  scopeHash : String

/-- The policy of one task. -/
structure PermissionPolicy where
  taskID : TaskID
  worktreePath : String
  taskActive : Bool
  approvedCommands : List ActionPattern := []
  grants : List PermissionGrant := []
  denials : List PermissionDenial := []

/-- The decision with what it refers to. -/
structure AuthorityClassification where
  outcome : PolicyOutcome
  (required capability : OpenEnum AuthorityClass)
  scopeHash : String
  matchedGrantID : String := ""
  (description reason : String)

/-- Is the directory the worktree or below it? -/
def withinWorktree (directory worktree : String) : Bool :=
  if directory = "" ∨ worktree = "" then false
  else
    match rel (clean worktree) (clean directory) with
    | none => false
    | some relative => relative ≠ ".." && !hasPrefix relative "../"

/-- Why an approval is asked for. -/
def approvalReason (authority : OpenEnum AuthorityClass) : String :=
  authority.toText ++ " authority requires an attributable user decision"

section Classify

variable (host : Host) (request : ToolRequest) (policy : PermissionPolicy)

/-- Does the denial cover the request's capability, for its action or for its scope? -/
def PermissionDenial.covers (denial : PermissionDenial) : Bool :=
  denial.taskID = request.taskID && denial.capability = requiredAuthority host request &&
    (denial.scopeHash = actionSHA256 host request ||
      denial.scopeHash = capabilityScopeHash host request (requiredAuthority host request))

/-- Is the grant for this action, and has it not been used up? -/
def PermissionGrant.allows (grant : PermissionGrant) : Bool :=
  grant.pattern.taskID = request.taskID && equalActionPattern grant.pattern (actionPattern request)
    && !(grant.mode = GrantMode.allowOnce && grant.used) &&
    (grant.mode = GrantMode.allowOnce || grant.mode = GrantMode.allowForTask)

/-- A decision about the request. -/
def classified (outcome : PolicyOutcome) (reason : String) (matchedGrantID : String := "") :
    AuthorityClassification where
  outcome
  required := requiredAuthority host request
  capability := requiredAuthority host request
  scopeHash := actionSHA256 host request
  matchedGrantID
  description := userReadableToolSummary host request
  reason

/-- The decision about a checked request, by the first rule that applies. -/
def authorityDecision : AuthorityClassification :=
  if policy.denials.any (PermissionDenial.covers host request) then
    classified host request .denied "matching task authority was denied"
  else if requiredAuthority host request = AuthorityClass.automaticRead then
    classified host request .automatic "bounded read-only repository action"
  else if requiredAuthority host request = AuthorityClass.taskWrite ∧
      withinWorktree request.workingDirectory policy.worktreePath then
    classified host request .taskScoped "bounded write inside the active task worktree"
      "policy:task-worktree-write"
  else if policy.taskActive = false then
    classified host request .denied "task-scoped authority expired with the task"
  else if policy.approvedCommands.any (equalActionPattern · (actionPattern request)) then
    classified host request .automatic "exact approved project command"
  else
    match policy.grants.find? (PermissionGrant.allows request) with
    | some grant =>
      classified host request .taskScoped "exact attributable permission grant" grant.id
    | none =>
      classified host request .approvalRequired (approvalReason (requiredAuthority host request))

/-- The decision of a task's policy about a request. -/
def classifyAuthority : Result AuthorityClassification := do
  validateToolRequest request
  ensure (policy.taskID.isZero = false ∧ request.taskID = policy.taskID)
    (.new "permission policy belongs to a different task")
  ensure (requiredAuthority host request).isValid (.new "derived authority class is unknown")
  return authorityDecision host request policy

variable {host request policy}

theorem classifyAuthority_of_valid (hvalid : validateToolRequest request = .ok ())
    (htask : request.taskID = policy.taskID) :
    classifyAuthority host request policy = .ok (authorityDecision host request policy) := by
  have hchecked := validateToolRequest_ok_iff.1 hvalid
  have hpolicy : policy.taskID.isZero = false ∧ request.taskID = policy.taskID :=
    ⟨htask ▸ hchecked.taskID, htask⟩
  simp only [classifyAuthority, hvalid, ensure_of hpolicy, ok_bind,
    ensure_of (requiredAuthority_isValid host hchecked.name)]
  rfl

/-- **An action is permitted exactly when no denial covers it and it is an automatic read, a write
inside the worktree, or an approved or granted action of an active task.** -/
theorem permitted_iff :
    (authorityDecision host request policy).outcome.permitted = true ↔
      policy.denials.any (PermissionDenial.covers host request) = false ∧
        (requiredAuthority host request = AuthorityClass.automaticRead ∨
          (requiredAuthority host request = AuthorityClass.taskWrite ∧
            withinWorktree request.workingDirectory policy.worktreePath = true) ∨
          (policy.taskActive = true ∧
            (policy.approvedCommands.any (equalActionPattern · (actionPattern request)) = true ∨
              policy.grants.any (PermissionGrant.allows request) = true))) := by
  unfold authorityDecision
  split_ifs with hdenied hread hwrite hactive happroved
  · simp [classified, PolicyOutcome.permitted, hdenied]
  · simp [classified, PolicyOutcome.permitted, hdenied, hread]
  · simp [classified, PolicyOutcome.permitted, hdenied, hwrite]
  · simp [classified, PolicyOutcome.permitted, hdenied, hread, hwrite, hactive]
  · simp [classified, PolicyOutcome.permitted, hdenied, hactive, happroved]
  · split
    · next grant hgrant =>
      have hany : policy.grants.any (PermissionGrant.allows request) = true :=
        List.any_eq_true.2 ⟨grant, List.mem_of_find?_eq_some hgrant, List.find?_some hgrant⟩
      simp [classified, PolicyOutcome.permitted, hdenied, hactive, hany]
    · next hnone =>
      have hany : policy.grants.any (PermissionGrant.allows request) = false := by
        simpa using hnone
      simp [classified, PolicyOutcome.permitted, hread, hwrite, happroved, hany]

end Classify

end Codeflux.Executor
