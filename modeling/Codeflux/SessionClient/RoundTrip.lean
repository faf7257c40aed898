import Codeflux.Transport.Encode
import Codeflux.SessionClient.Decode

/-!
# The wire round trip

What the client decodes from the message that the server makes of an event. The wire message of a
usage update has no place for the tokens written to a cache and for the provider's own categories.
-/

namespace Codeflux.SessionClient

open Library Go Domain Events Transport WireEvent Bool Option

section Identities

variable {kind : IDKind} {id : TypedID kind}

theorem parseTypedIdentity_envelope (h : id.isZero = false) (want : StableIdentityKind) :
    parseTypedIdentity kind want (some { kind := want, value := id.value }) = .ok id := by
  have hne : id.value ≠ "" := by simpa [TypedID.isZero] using h
  simp [parseTypedIdentity, parseIdentity, ensure_of, hne, parseTypedID_value id h]

theorem parse_identityToProto (h : id.isZero = false) (want : StableIdentityKind) :
    ∃ message, identityToProto id want = .ok message ∧
      parseTypedIdentity kind want (some message) = .ok id :=
  ⟨_, identityToProto_ok h want, parseTypedIdentity_envelope h want⟩

theorem parse_optionalToProto {id : Option (TypedID kind)} (h : ∀ v ∈ id, v.isZero = false)
    (want : StableIdentityKind) :
    ∃ message, optionalToProto (identityToProto · want) id = .ok message ∧
      parseOptional (parseTypedIdentity kind want) message = .ok id := by
  cases id with
  | none => exact ⟨none, rfl, rfl⟩
  | some v =>
    obtain ⟨message, hto, hfrom⟩ := parse_identityToProto (h v rfl) want
    refine ⟨some message, ?_, ?_⟩
    · simp [optionalToProto, hto]
    · simp [parseOptional, hfrom]

theorem parse_mapM_identityToProto {ids : List (TypedID kind)} (h : ∀ v ∈ ids, v.isZero = false)
    (want : StableIdentityKind) :
    ∃ messages, ids.mapM (identityToProto · want) = .ok messages ∧
      messages.mapM (parseTypedIdentity kind want ∘ some) = .ok ids := by
  induction ids with
  | nil => exact ⟨[], rfl, rfl⟩
  | cons v ids ih =>
    obtain ⟨message, hto, hfrom⟩ := parse_identityToProto (h v List.mem_cons_self) want
    obtain ⟨messages, htos, hfroms⟩ := ih fun w hw => h w (List.mem_cons_of_mem v hw)
    refine ⟨message :: messages, ?_, ?_⟩
    · simp [List.mapM_cons, hto, htos]
    · simp [List.mapM_cons, hfrom, hfroms]

end Identities

/-! ### Payloads -/

/-- The message made of `value` decodes to `image`. -/
def RoundTrips {α β : Type} (convert : α → Result β) (decode : β → Result α) (value image : α) :
    Prop :=
  ∃ message, convert value = .ok message ∧ decode message = .ok image

theorem newMoney_currency {a b : Money} (h : a.currency = b.currency) (hb : b.validate = .ok ()) :
    newMoney a.currency b.minorUnits = .ok b := by
  rw [h]
  exact newMoney_of_valid hb

/-- The tokens of a usage update as they arrive. -/
def carriedUsage (usage : Usage) : Usage :=
  { tokens := { usage.tokens with cacheWrite := 0, providerSpecific := [] } }

/-! ### The two switches -/

/-- The payload that arrives: the field that the kind selects. -/
def carried (payload : Payload) : Kind → Payload
  | .messageDelta => { messageDelta := payload.messageDelta }
  | .messageFinal => { messageFinal := payload.messageFinal }
  | .threadCreated => { threadCreated := payload.threadCreated }
  | .threadRenamed => { threadRenamed := payload.threadRenamed }
  | .threadArchived => { threadArchived := payload.threadArchived }
  | .planCreated | .planChanged => { plan := payload.plan }
  | .toolStarted | .toolProgress | .toolCompleted => { tool := payload.tool }
  | .approvalRequested | .approvalResolved => { approval := payload.approval }
  | .taskStateChanged => { taskStateChanged := payload.taskStateChanged }
  | .forecastUpdated => { forecast := payload.forecast }
  | .usageUpdated => { usage := payload.usage.map carriedUsage }
  | .costUpdated => { cost := payload.cost }
  | .budgetUpdated => { budget := payload.budget }
  | .validationUpdated => { validation := payload.validation }
  | .graphSnapshot | .graphPatch => { graph := payload.graph }
  | .checkpointCreated => { checkpoint := payload.checkpoint }
  | .recoveryRequired => { recoveryRequired := payload.recoveryRequired }
  | .changeAcceptanceUpdated => { changeAcceptance := payload.changeAcceptance }
  | .taskProjectionInvalidated =>
    { taskProjectionInvalidated := payload.taskProjectionInvalidated }
  | .error => { error := payload.error }

/-- A case of the encoder and the case of the decoder that answers it: the decoder looks for the
payload that the encoder sets, and a valid value comes back as its image. -/
structure Conversion {α β : Type} (validate : Option α → Result Unit) (convert : α → Result β)
    (set : β → EventPayload) (get : WireEvent → Option β) (decode : β → Result α)
    (image : α → α) : Prop where
  get_set : ∀ value message, value.payload = some (set message) → get value = some message
  none_invalid : validate none ≠ .ok ()
  roundTrips : ∀ v, validate (some v) = .ok () → RoundTrips convert decode v (image v)

/-- The message that the server makes of a payload decodes to `result`. -/
def Arrives (payload : Payload) (kind : Kind) (result : Payload) : Prop :=
  ∃ wireKind message,
    setSessionEventPayload payload (.declared kind) = .ok (wireKind, message) ∧
    ∀ value : WireEvent, value.kind = wireKind → value.payload = some message →
      decodePayload value = .ok (kind, result)

variable {kind : Kind} {payload : Payload}

/-- The payload that a case of the encoder carries arrives in the case of the decoder. -/
theorem Conversion.arrives {α β : Type} {validate : Option α → Result Unit}
    {convert : α → Result β} {set : β → EventPayload} {get : WireEvent → Option β}
    {decode : β → Result α} {image : α → α} {field : Option α}
    (h : Conversion validate convert set get decode image) (hvalid : validate field = .ok ())
    (wireKind : SessionEventKind) (embed : Option α → Payload)
    (hcarried : embed (field.map image) = carried payload kind := by simp [carried])
    (hcount : ∀ v, (embed (some v)).count = 1 := by exact fun _ => rfl)
    (hset : setSessionEventPayload payload (.declared kind) =
      setPayload field convert wireKind set := by rfl)
    (hdecode : ∀ value : WireEvent, value.kind = wireKind → decodePayload value =
      decodeAs (get value) decode kind embed := by intro _ hk; rw [decodePayload, hk]) :
    Arrives payload kind (carried payload kind) ∧ (carried payload kind).count = 1 := by
  rw [← hcarried]
  cases field with
  | none => exact absurd hvalid h.none_invalid
  | some v =>
    refine ⟨?_, hcount (image v)⟩
    obtain ⟨message, hto, hfrom⟩ := h.roundTrips v hvalid
    refine ⟨wireKind, set message, ?_, fun value hkind hpayload => ?_⟩
    · rw [hset]
      simp [setPayload, dereference, hto]
    · rw [hdecode value hkind, h.get_set value message hpayload]
      simp [decodeAs, hfrom]

theorem messageDelta_conversion :
    Conversion validateMessageDelta messageDeltaToProto .messageDelta
      getMessageDelta decodeMessageDelta id where
  get_set _ _ h := by rw [getMessageDelta, h]
  none_invalid := by decide
  roundTrips v h := by
    simp only [validateMessageDelta, ensure_ok_iff, any_some, and_eq_true,
      not_eq_true'] at h
    obtain ⟨message, hto, hfrom⟩ := parse_identityToProto h.1 .message
    refine ⟨⟨message, v.redactedDelta⟩, ?_, ?_⟩
    · simp [messageDeltaToProto, messageIDToProto, hto]
    · simp [decodeMessageDelta, parseMessageIdentity, hfrom]

theorem messageFinal_conversion :
    Conversion validateMessageFinal messageFinalToProto .messageFinal
      getMessageFinal decodeMessageFinal id where
  get_set _ _ h := by rw [getMessageFinal, h]
  none_invalid := by decide
  roundTrips v h := by
    simp only [validateMessageFinal, ensure_ok_iff, any_some, and_eq_true,
      not_eq_true'] at h
    obtain ⟨message, hto, hfrom⟩ := parse_identityToProto h.1 .message
    refine ⟨⟨message, v.role, v.redactedBody⟩, ?_, ?_⟩
    · simp [messageFinalToProto, messageIDToProto, hto]
    · simp [decodeMessageFinal, parseMessageIdentity, hfrom]

theorem threadCreated_conversion :
    Conversion validateThreadCreated threadCreatedToProto .threadCreated
      getThreadCreated decodeThreadCreated id where
  get_set _ _ h := by rw [getThreadCreated, h]
  none_invalid := by decide
  roundTrips v h := by
    simp only [validateThreadCreated, ensure_ok_iff, any_some, and_eq_true,
      SessionEvent.all_nonzero_iff] at h
    obtain ⟨message, hto, hfrom⟩ := parse_optionalToProto h.2 .workspace
    refine ⟨⟨message, v.title, v.archived⟩, ?_, ?_⟩
    · have hto' : optionalToProto workspaceIDToProto v.workspaceID = .ok message := hto
      simp [threadCreatedToProto, hto']
    · have hfrom' : parseOptional parseWorkspaceIdentity message = .ok v.workspaceID := hfrom
      simp [decodeThreadCreated, hfrom']

theorem threadRenamed_conversion :
    Conversion validateThreadRenamed threadRenamedToProto .threadRenamed
      getThreadRenamed decodeThreadRenamed id where
  get_set _ _ h := by rw [getThreadRenamed, h]
  none_invalid := by decide
  roundTrips _ _ := ⟨_, rfl, rfl⟩

theorem threadArchived_conversion :
    Conversion validateThreadArchived threadArchivedToProto .threadArchived
      getThreadArchived decodeThreadArchived id where
  get_set _ _ h := by rw [getThreadArchived, h]
  none_invalid := by decide
  roundTrips _ _ := ⟨_, rfl, rfl⟩

theorem plan_conversion : Conversion validatePlan planToProto .plan getPlan decodePlan id where
  get_set _ _ h := by rw [getPlan, h]
  none_invalid := by decide
  roundTrips _ _ := ⟨_, rfl, rfl⟩

theorem tool_conversion : Conversion validateTool toolToProto .tool getTool decodeTool id where
  get_set _ _ h := by rw [getTool, h]
  none_invalid := by decide
  roundTrips _ _ := ⟨_, rfl, rfl⟩

theorem approval_conversion :
    Conversion validateApproval approvalToProto .approval
      getApproval decodeApproval id where
  get_set _ _ h := by rw [getApproval, h]
  none_invalid := by decide
  roundTrips v h := by
    simp only [validateApproval, ensure_ok_iff, any_some, and_eq_true,
      not_eq_true'] at h
    obtain ⟨message, hto, hfrom⟩ := parse_identityToProto h.1.1 .approval
    refine ⟨⟨message, v.state.toText, v.scope, v.redactedReason⟩, ?_, ?_⟩
    · simp [approvalToProto, approvalIDToProto, hto]
    · simp [decodeApproval, parseApprovalIdentity, hfrom]

theorem taskStateChanged_conversion :
    Conversion validateTaskState taskStateChangedToProto .taskStateChanged
      getTaskStateChanged decodeTaskStateChanged id where
  get_set _ _ h := by rw [getTaskStateChanged, h]
  none_invalid := by decide
  roundTrips v _ := ⟨_, rfl, by simp [decodeTaskStateChanged]⟩

theorem forecast_conversion :
    Conversion validateForecast forecastToProto .forecast
      getForecast decodeForecast id where
  get_set _ _ h := by rw [getForecast, h]
  none_invalid := by decide
  roundTrips v h := by
    obtain ⟨range⟩ := v
    simp only [validateForecast, ForecastRange.validate, run_ok_iff, exists_const] at h
    obtain ⟨-, -, hunknown, h⟩ := h
    cases hknown : range.costKnown with
    | true =>
      rw [if_neg (by simp [hknown])] at h
      simp only [ForecastRange.validateKnown, run_ok_iff, exists_const] at h
      obtain ⟨-, -, -, hmoney, hsame, -, -⟩ := h
      obtain ⟨hp50, hp90⟩ := hmoney hknown
      have hcurrency := Money.validate_ok_iff.1 hp50
      simp only [RoundTrips, forecastToProto, hknown, if_true]
      refine ⟨_, rfl, ?_⟩
      simp [decodeForecast, hcurrency, newMoney_of_valid hp50,
        newMoney_currency (hsame hknown) hp90,
        ← hknown]
    | false =>
      obtain ⟨hp50, hp90⟩ := hunknown hknown
      cases range
      subst hknown hp50 hp90
      exact ⟨_, rfl, rfl⟩

theorem usage_conversion :
    Conversion validateUsage usageToProto .usage getUsage decodeUsage carriedUsage where
  get_set _ _ h := by rw [getUsage, h]
  none_invalid := by decide
  roundTrips _ _ := ⟨_, rfl, rfl⟩

theorem cost_conversion : Conversion validateCost costToProto .cost getCost decodeCost id where
  get_set _ _ h := by rw [getCost, h]
  none_invalid := by decide
  roundTrips v h := by
    obtain ⟨known, value⟩ := v
    cases known with
    | true =>
      simp only [validateCost, if_true, ensure_ok_iff] at h
      have hcurrency := Money.validate_ok_iff.1 h.1
      refine ⟨_, rfl, ?_⟩
      simp [decodeCost, hcurrency, newMoney_of_valid h.1]
    | false =>
      simp only [validateCost, false_eq_true, if_false, ensure_ok_iff] at h
      exact ⟨_, rfl, by rw [h]; rfl⟩

theorem budget_conversion :
    Conversion validateBudget budgetToProto .budget getBudget decodeBudget id where
  get_set _ _ h := by rw [getBudget, h]
  none_invalid := by decide
  roundTrips v h := by
    simp only [validateBudget, ensure_ok_iff, any_some, and_eq_true,
      decide_eq_true_eq, beq_iff_eq] at h
    obtain ⟨⟨⟨⟨⟨⟨⟨⟨⟨hhard, hreserved⟩, hactual⟩, hsame⟩, hsame'⟩, -⟩, -⟩, -⟩, -⟩, -⟩ := h
    have hcurrency := Money.validate_ok_iff.1 hhard
    refine ⟨_, rfl, ?_⟩
    simp [decodeBudget, hcurrency, newMoney_of_valid hhard, newMoney_currency hsame hreserved,
      newMoney_currency hsame' hactual]

theorem validation_conversion :
    Conversion validateValidation validationToProto .validation
      getValidation decodeValidation id where
  get_set _ _ h := by rw [getValidation, h]
  none_invalid := by decide
  roundTrips v h := by
    simp only [validateValidation, ensure_ok_iff, any_some, and_eq_true,
      not_eq_true'] at h
    obtain ⟨message, hto, hfrom⟩ := parse_identityToProto h.1.1 .validation
    refine ⟨⟨message, v.state.toText, v.redactedSummary, v.required, v.acknowledged,
      v.diffRevision⟩, ?_, ?_⟩
    · simp [validationToProto, validationIDToProto, hto]
    · simp [decodeValidation, parseValidationIdentity, hfrom]

theorem graph_conversion :
    Conversion validateGraph graphToProto .graph getGraph decodeGraph id where
  get_set _ _ h := by rw [getGraph, h]
  none_invalid := by decide
  roundTrips v h := by
    simp only [validateGraph, ensure_ok_iff, any_some, and_eq_true,
      not_eq_true'] at h
    obtain ⟨message, hto, hfrom⟩ := parse_identityToProto h.1 .graphRevision
    refine ⟨⟨message, v.encodedChange⟩, ?_, ?_⟩
    · simp [graphToProto, graphRevisionIDToProto, hto]
    · simp [decodeGraph, parseGraphRevisionIdentity, hfrom]

theorem checkpoint_conversion :
    Conversion validateCheckpoint checkpointToProto .checkpoint
      getCheckpoint decodeCheckpoint id where
  get_set _ _ h := by rw [getCheckpoint, h]
  none_invalid := by decide
  roundTrips v h := by
    simp only [validateCheckpoint, ensure_ok_iff, any_some, and_eq_true,
      not_eq_true'] at h
    obtain ⟨message, hto, hfrom⟩ := parse_identityToProto h.1.1 .checkpoint
    refine ⟨⟨message, v.taskRevision, v.planStep⟩, ?_, ?_⟩
    · simp [checkpointToProto, checkpointIDToProto, hto]
    · simp [decodeCheckpoint, parseCheckpointIdentity, hfrom]

theorem recoveryRequired_conversion :
    Conversion validateRecovery recoveryRequiredToProto .recoveryRequired
      getRecoveryRequired decodeRecoveryRequired id where
  get_set _ _ h := by rw [getRecoveryRequired, h]
  none_invalid := by decide
  roundTrips v h := by
    simp only [validateRecovery, run_ok_iff, exists_const, SessionEvent.all_nonzero_iff] at h
    obtain ⟨⟨-, hcheckpoint, -⟩, -, -, -, hevents, -⟩ := h
    obtain ⟨checkpoint, hto, hfrom⟩ := parse_optionalToProto hcheckpoint .checkpoint
    obtain ⟨events, htos, hfroms⟩ := parse_mapM_identityToProto hevents .event
    have hto' : optionalToProto checkpointIDToProto v.checkpointID = .ok checkpoint := hto
    have htos' : v.relatedEventIDs.mapM eventIDToProto = .ok events := htos
    have hfrom' : parseOptional parseCheckpointIdentity checkpoint = .ok v.checkpointID := hfrom
    have hfroms' : events.mapM (parseEventIdentity ∘ some) = .ok v.relatedEventIDs := hfroms
    rw [RoundTrips, recoveryRequiredToProto, hto', ok_bind, htos', ok_bind]
    exact ⟨_, rfl, by simp [decodeRecoveryRequired, hfrom', hfroms']⟩

theorem changeAcceptance_conversion :
    Conversion validateChangeAcceptance changeAcceptanceToProto .changeAcceptance
      getChangeAcceptance decodeChangeAcceptance id where
  get_set _ _ h := by rw [getChangeAcceptance, h]
  none_invalid := by decide
  roundTrips v _ := ⟨_, rfl, by simp [decodeChangeAcceptance]⟩

theorem taskProjectionInvalidated_conversion :
    Conversion validateTaskProjectionInvalidated taskProjectionInvalidatedToProto
      .taskProjectionInvalidated getTaskProjectionInvalidated
      decodeTaskProjectionInvalidated id where
  get_set _ _ h := by rw [getTaskProjectionInvalidated, h]
  none_invalid := by decide
  roundTrips _ _ := ⟨_, rfl, rfl⟩

theorem error_conversion :
    Conversion validateUserError userErrorToProto .error getError decodeUserError id where
  get_set _ _ h := by rw [getError, h]
  none_invalid := by decide
  roundTrips v _ := ⟨_, rfl, by simp [decodeUserError]⟩

/-- **What arrives of a payload.** -/
theorem payload_round_trip (h : validatePayload payload (.declared kind) = .ok ()) :
    Arrives payload kind (carried payload kind) ∧ (carried payload kind).count = 1 := by
  cases kind with
  | messageDelta => exact messageDelta_conversion.arrives h .messageDelta ({ messageDelta := · })
  | messageFinal => exact messageFinal_conversion.arrives h .messageFinal ({ messageFinal := · })
  | threadCreated =>
    exact threadCreated_conversion.arrives h .threadCreated ({ threadCreated := · })
  | threadRenamed =>
    exact threadRenamed_conversion.arrives h .threadRenamed ({ threadRenamed := · })
  | threadArchived =>
    exact threadArchived_conversion.arrives h .threadArchived ({ threadArchived := · })
  | planCreated => exact plan_conversion.arrives h .planCreated ({ plan := · })
  | planChanged => exact plan_conversion.arrives h .planChanged ({ plan := · })
  | toolStarted => exact tool_conversion.arrives h .toolStarted ({ tool := · })
  | toolProgress => exact tool_conversion.arrives h .toolProgress ({ tool := · })
  | toolCompleted => exact tool_conversion.arrives h .toolCompleted ({ tool := · })
  | approvalRequested => exact approval_conversion.arrives h .approvalRequested ({ approval := · })
  | approvalResolved => exact approval_conversion.arrives h .approvalResolved ({ approval := · })
  | taskStateChanged =>
    exact taskStateChanged_conversion.arrives h .taskStateChanged ({ taskStateChanged := · })
  | forecastUpdated => exact forecast_conversion.arrives h .forecastUpdated ({ forecast := · })
  | usageUpdated => exact usage_conversion.arrives h .usageUpdated ({ usage := · })
  | costUpdated => exact cost_conversion.arrives h .costUpdated ({ cost := · })
  | budgetUpdated => exact budget_conversion.arrives h .budgetUpdated ({ budget := · })
  | validationUpdated =>
    exact validation_conversion.arrives h .validationUpdated ({ validation := · })
  | graphSnapshot => exact graph_conversion.arrives h .graphSnapshot ({ graph := · })
  | graphPatch => exact graph_conversion.arrives h .graphPatch ({ graph := · })
  | checkpointCreated =>
    exact checkpoint_conversion.arrives h .checkpointCreated ({ checkpoint := · })
  | recoveryRequired =>
    exact recoveryRequired_conversion.arrives h .recoveryRequired ({ recoveryRequired := · })
  | error => exact error_conversion.arrives h .error ({ error := · })
  | changeAcceptanceUpdated =>
    exact changeAcceptance_conversion.arrives h .changeAcceptanceUpdated ({ changeAcceptance := · })
  | taskProjectionInvalidated =>
    exact taskProjectionInvalidated_conversion.arrives h .taskProjectionInvalidated
      ({ taskProjectionInvalidated := · })

/-! ### Faithful events -/

theorem carriedUsage_eq_iff {usage : Usage} :
    carriedUsage usage = usage ↔
      usage.tokens.cacheWrite = 0 ∧ usage.tokens.providerSpecific = [] := by
  obtain ⟨tokens⟩ := usage
  cases tokens
  simp [carriedUsage, eq_comm]

/-- A usage payload without the fields that the wire drops. -/
def UsageCarried (payload : Payload) (kind : Kind) : Prop :=
  kind = .usageUpdated → ∀ usage ∈ payload.usage,
    usage.tokens.cacheWrite = 0 ∧ usage.tokens.providerSpecific = []

theorem extends_carried (h : UsageCarried payload kind) :
    payload.Extends (carried payload kind) := by
  cases kind with
  | usageUpdated =>
    have hsame : payload.usage.map carriedUsage = payload.usage := by
      cases husage : payload.usage with
      | none => rfl
      | some usage => exact congrArg some (carriedUsage_eq_iff.2 (h rfl usage husage))
    simp [carried, Payload.Extends, Payload.Agrees, hsame]
  | _ => simp [carried, Payload.Extends, Payload.Agrees]

theorem carried_eq_iff (h : validatePayload payload (.declared kind) = .ok ())
    (hcount : payload.count = 1) : carried payload kind = payload ↔ UsageCarried payload kind := by
  constructor
  · rintro heq rfl usage husage
    rw [← carriedUsage_eq_iff]
    have hfield := congrArg Payload.usage heq
    simpa [carried, Option.mem_def.1 husage] using hfield
  · intro hcarried
    exact Payload.eq_of_extends (extends_carried hcarried)
      (hcount.trans (payload_round_trip h).2.symm).le

/-- The event that arrives, before it is checked. -/
def arrived (event : SessionEvent) (kind : Kind) : SessionEvent :=
  { event with
    timestamp := ofUnixMicro event.timestamp.unixMicro
    payload := carried event.payload kind }

/-- What the message of an event says. -/
structure Sent (event : SessionEvent) (kind : Kind) (message : WireEvent) : Prop where
  sequence : message.sequence = event.sequence
  sessionID : message.sessionID = some { kind := .session, value := event.sessionID.value }
  decoded : ∀ result,
    decodeEvent (some message) = .ok result ↔ arrived event kind = result ∧ result.Valid

variable {event : SessionEvent}

theorem exists_kind (h : event.Valid) : ∃ kind, event.kind = .declared kind := by
  have hpayload := h.payload
  cases hkind : event.kind with
  | declared kind => exact ⟨kind, rfl⟩
  | undeclared raw outside =>
    rw [hkind] at hpayload
    cases hpayload

/-- **Encoding.** Every valid event has a message. -/
theorem sessionEventToProto_sent (h : event.Valid) (hkind : event.kind = .declared kind) :
    ∃ message, sessionEventToProto event = .ok message ∧ Sent event kind message := by
  have hvalidate : event.validate = .ok () := SessionEvent.validate_ok_iff.2 h
  obtain ⟨wireKind, payload, hset, hdecode⟩ := (payload_round_trip (hkind ▸ h.payload)).1
  obtain ⟨thread, hthread, hthread'⟩ := parse_identityToProto h.threadID .thread
  obtain ⟨task, htask, htask'⟩ := parse_optionalToProto h.taskID .task
  obtain ⟨causation, hcausation, hcausation'⟩ := parse_optionalToProto h.causationID .event
  obtain ⟨correlation, hcorrelation, hcorrelation'⟩ :=
    parse_optionalToProto h.correlationID .event
  change optionalToProto taskIDToProto event.taskID = .ok task at htask
  change optionalToProto eventIDToProto event.causationID = .ok causation at hcausation
  change optionalToProto eventIDToProto event.correlationID = .ok correlation at hcorrelation
  change parseOptional parseTaskIdentity task = .ok event.taskID at htask'
  change parseOptional parseEventIdentity causation = .ok event.causationID at hcausation'
  change parseOptional parseEventIdentity correlation = .ok event.correlationID at hcorrelation'
  refine ⟨{ event with
    sessionID := some { kind := .session, value := event.sessionID.value }
    threadID := thread
    taskID := task
    timestampUnixMicros := event.timestamp.unixMicro
    kind := wireKind
    causationID := causation
    correlationID := correlation
    payload }, ?_, rfl, rfl, fun result => ?_⟩
  · simp only [sessionEventToProto, hvalidate, sessionIDToProto, identityToProto_ok h.sessionID,
      threadIDToProto, hthread, htask, hcausation, hcorrelation, hkind, hset, ok_bind]
    rfl
  · rw [decodeEvent, ensure_of ⟨h.sequence, h.payloadVersion⟩, ok_bind, hdecode _ rfl rfl]
    simp only [parseSessionIdentity, parseTypedIdentity_envelope h.sessionID, parseThreadIdentity,
      hthread', htask', hcausation', hcorrelation', ok_bind, NewSessionEvent.build_ok_iff]
    rw [arrived, ← hkind]
    rfl

/-- **The events that the wire carries whole.** -/
structure WireFaithful (event : SessionEvent) : Prop where
  fitsMicros : event.timestamp.FitsMicros
  usage : event.kind = .declared .usageUpdated → ∀ usage ∈ event.payload.usage,
    usage.tokens.cacheWrite = 0 ∧ usage.tokens.providerSpecific = []

theorem arrived_eq_iff (h : event.Valid)
    (hkind : event.kind = .declared kind) (hprecise : event.timestamp.MicrosecondPrecision) :
    arrived event kind = event ↔ WireFaithful event := by
  have htime := ofUnixMicro_unixMicro_iff h.utc hprecise
  have hpayload := carried_eq_iff (hkind ▸ h.payload) h.count
  have hfields : arrived event kind = event ↔
      ofUnixMicro event.timestamp.unixMicro = event.timestamp ∧
        carried event.payload kind = event.payload := by
    cases event
    simp [arrived]
  rw [hfields, htime, hpayload]
  constructor
  · rintro ⟨hfits, husage⟩
    exact ⟨hfits, fun hupdated => husage (by rw [hkind] at hupdated; cases hupdated; rfl)⟩
  · rintro ⟨hfits, husage⟩
    exact ⟨hfits, fun hupdated => husage (by rw [hkind, hupdated])⟩

/-- **Wire round trip.** A valid event with a time of microsecond precision has a message, and the
client decodes the event itself from it exactly when the event is faithful. -/
theorem wire_round_trip_iff {event : SessionEvent} (hvalid : event.validate = .ok ())
    (hprecise : event.timestamp.MicrosecondPrecision) :
    (∃ message, sessionEventToProto event = .ok message ∧
      decodeEvent (some message) = .ok event) ↔ WireFaithful event := by
  have h := SessionEvent.validate_ok_iff.1 hvalid
  obtain ⟨kind, hkind⟩ := exists_kind h
  obtain ⟨message, hmessage, hsent⟩ := sessionEventToProto_sent h hkind
  rw [← arrived_eq_iff h hkind hprecise]
  constructor
  · rintro ⟨other, hother, hdecoded⟩
    obtain rfl : message = other := Except.ok.inj (hmessage.symm.trans hother)
    exact ((hsent.decoded event).1 hdecoded).1
  · exact fun heq => ⟨message, hmessage, (hsent.decoded event).2 ⟨heq, h⟩⟩

theorem wire_round_trip_sample :
    ∃ message, sessionEventToProto (sampleRename.sequenced 1 ⟨1000, true⟩) = .ok message ∧
      decodeEvent (some message) = .ok (sampleRename.sequenced 1 ⟨1000, true⟩) :=
  (wire_round_trip_iff (by decide) (by decide)).2
    ⟨by decide, fun hkind => absurd hkind (by decide)⟩

/-- A usage update with tokens that were written to a cache. -/
def cacheWriteUsage (cacheWrite : UInt64) : SessionEvent where
  sequence := 1
  sessionID := sampleSessionID
  threadID := sampleThreadID
  taskID := none
  timestamp := ⟨1000, true⟩
  kind := .declared .usageUpdated
  revision := 1
  causationID := none
  correlationID := none
  payloadVersion := 1
  payload := { usage := some ⟨{ known := true, input := 10, cacheWrite, output := 5 }⟩ }

/-- The conversions succeed, and the tokens written to the cache are gone. -/
theorem cacheWrite_lost_on_wire :
    (cacheWriteUsage 7).validate = .ok () ∧
      (cacheWriteUsage 7).timestamp.MicrosecondPrecision ∧
      (sessionEventToProto (cacheWriteUsage 7)).bind (decodeEvent ∘ some) =
        .ok (cacheWriteUsage 0) ∧
      cacheWriteUsage 0 ≠ cacheWriteUsage 7 := by
  decide

end Codeflux.SessionClient
