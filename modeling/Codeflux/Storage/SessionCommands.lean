import Codeflux.Domain.Identity
import Codeflux.Go.Time
import Codeflux.Storage.Database

/-!
# Session commands

One transaction looks the idempotency key up, runs the command's operation when no row has it, and
records the result in a row of its own. The operation may do anything to the rest of the database,
and the database may fail at every point.
-/

namespace Codeflux.Storage

open Library Go Domain

/-! ### Transactions -/

/-- The failures of the database during one transaction. -/
structure Faults where
  start : Option Failure := none
  query : Option Failure := none
  write : Option Failure := none
  rollback : Option Failure := none
  commit : Option Failure := none
  /-- The busy timeout of the connection is restored after every transaction. -/
  restore : Option Failure := none

/-- `errors.Join` with an error that may be nil. -/
def Failure.join (e : Failure) (other : Option Failure) : Failure := other.elim e (.joined e)

/-- `RunInTransaction`. After a commit it can still fail to restore the connection. -/
def runInTransaction {D α : Type} (faults : Faults) (operation : D → Result (α × D))
    (database : D) : Result α × D :=
  match faults.start with
  | some e => (.error e, database)
  | none =>
    match operation database with
    | .error e => (.error (Failure.join (Failure.join e faults.rollback) faults.restore), database)
    | .ok (a, written) =>
      match faults.commit with
      | some e => (.error (Failure.join e faults.restore), database)
      | none => (faults.restore.elim (.ok a) .error, written)

/-! ### The table of commands -/

/-- What identifies a command: its session, its key and the hash of its request. -/
structure SessionCommand where
  sessionID : SessionID
  (idempotencyKey requestSHA256 : String)

/-- What a command returns. -/
structure SessionCommandResult extends SessionCommand where
  resultJSON : String
  finalSequence : UInt64
  createdAt : Timestamp
  replayed : Bool

/-- A row of `session_commands`. -/
structure SessionCommandRow extends SessionCommand where
  resultJSON : String
  finalSequence : UInt64
  createdMicros : Int

/-- The result that a row repeats. -/
def SessionCommandRow.replay (row : SessionCommandRow) : SessionCommandResult :=
  { row with createdAt := ofUnixMicro row.createdMicros, replayed := true }

/-- A hash in hexadecimal digits of lower case. -/
def validSHA256 (value : String) : Bool :=
  byteLength value == 64 && value.toList.all fun c => c.isDigit || 'a' ≤ c && c ≤ 'f'

/-- What the commands need from outside their table; `σ` is the rest of the database. -/
structure CommandHost (σ : Type) where
  /-- Does `json.Unmarshal` into a map give an object? -/
  isObject : String → Bool
  /-- The column's `json_valid` and `json_type`. -/
  jsonColumn : String → Bool
  /-- The current sequence in the row of a session. -/
  currentSequence : σ → SessionID → Option UInt64

namespace CommandHost

variable {σ : Type} (host : CommandHost σ)

/-- The constraints of `session_commands`. -/
def commandSchema : Schema SessionCommandRow where
  check row :=
    lengthBetween 1 255 row.idempotencyKey && validSHA256 row.requestSHA256 &&
    host.jsonColumn row.resultJSON && fitsColumn row.finalSequence && 0 ≤ row.createdMicros
  conflict a b := a.sessionID == b.sessionID && a.idempotencyKey == b.idempotencyKey
  conflict_comm a b := by rw [BEq.comm (a := a.sessionID), BEq.comm (a := a.idempotencyKey)]

/-- The database: the rows of the commands, and the rest. -/
structure Store where
  rest : σ
  commands : Table host.commandSchema

/-- The lookup of a key. -/
def find (command : SessionCommand) (commands : Table host.commandSchema) :
    Option SessionCommandRow :=
  commands.rows.find? fun row =>
    row.sessionID == command.sessionID && row.idempotencyKey == command.idempotencyKey

/-- The insert of a result, with its trigger and its foreign key. -/
def insertCommand (faults : Faults) (rest : σ) (row : SessionCommandRow)
    (commands : Table host.commandSchema) : Result (Table host.commandSchema) := do
  let operation := "persist session command result"
  faults.write.elim (.ok ()) .error
  ensure ((host.currentSequence rest row.sessionID).all (row.finalSequence ≤ ·))
    (.typed errConstraint operation (.new "session command result exceeds committed history"))
  let written ← repositoryWriteError operation (commands.insert row)
  ensure (host.currentSequence rest row.sessionID).isSome
    (.typed errConstraint operation (.new "FOREIGN KEY constraint failed"))
  return written

/-- `validateJSONObject`. -/
def validateJSONObject (value : String) (maximum : Nat) : Result Unit := do
  ensure (byteLength value ≠ 0 ∧ byteLength value ≤ maximum)
    (.new "session command result JSON has invalid length")
  ensure (host.isObject value) (.new "session command result must be one JSON object")

/-! ### Executing a command -/

/-- A call of `ExecuteSessionCommand`, with what the database and the clock do meanwhile. The
operation sees and changes the rest of the database. -/
structure Call (σ : Type) where
  command : SessionCommand
  operation : Option (σ → Result ((String × UInt64) × σ))
  now : Timestamp
  faults : Faults := {}

/-- The checks before the transaction. -/
def checkCall (call : Call σ) : Result (σ → Result ((String × UInt64) × σ)) := do
  ensure (call.command.sessionID.isZero = false) (.new "command session ID must not be empty")
  let operation ← call.operation.elim
    (.error (.new "session command operation must not be nil")) .ok
  validateBounded "session command idempotency key" call.command.idempotencyKey 255
  ensure (validSHA256 call.command.requestSHA256)
    (.new "session command request SHA-256 is invalid")
  return operation

/-- The row that records the result of a call. -/
def Call.row (call : Call σ) (resultJSON : String) (finalSequence : UInt64) : SessionCommandRow :=
  ⟨call.command, resultJSON, finalSequence, call.now.unixMicro⟩

/-- The transaction of a call. -/
def transact (call : Call σ) (operation : σ → Result ((String × UInt64) × σ)) (store : host.Store) :
    Result (SessionCommandResult × host.Store) := do
  call.faults.query.elim (.ok ()) .error
  match host.find call.command store.commands with
  | some row =>
    ensure (row.requestSHA256 = call.command.requestSHA256)
      (.typed errConflict "execute idempotent session command"
        (.new "idempotency key belongs to a different request"))
    return (row.replay, store)
  | none =>
    let ((resultJSON, finalSequence), rest) ← operation store.rest
    host.validateJSONObject resultJSON (1024 * 1024)
    let row := call.row resultJSON finalSequence
    let commands ← host.insertCommand call.faults rest row store.commands
    return ({ row.replay with createdAt := call.now, replayed := false }, ⟨rest, commands⟩)

/-- `ExecuteSessionCommand`. -/
def executeSessionCommand (call : Call σ) (store : host.Store) :
    Result SessionCommandResult × host.Store :=
  match checkCall call with
  | .error e => (.error e, store)
  | .ok operation => runInTransaction call.faults (host.transact call operation) store

/-- The database after a call. -/
def step (store : host.Store) (call : Call σ) : host.Store :=
  (host.executeSessionCommand call store).2

variable {host} {store : host.Store} {call : Call σ} {row : SessionCommandRow}

/-- A call that passes the checks fails without a change, or its transaction is committed. -/
theorem execute_cases {operation : σ → Result ((String × UInt64) × σ)}
    (hcheck : checkCall call = .ok operation) (store : host.Store) :
    (∃ e, host.executeSessionCommand call store = (.error e, store)) ∨
      ∃ result written, host.transact call operation store = .ok (result, written) ∧
        host.executeSessionCommand call store =
          (call.faults.restore.elim (.ok result) .error, written) := by
  simp only [executeSessionCommand, hcheck]
  unfold runInTransaction
  split
  · exact .inl ⟨_, rfl⟩
  · cases host.transact call operation store with
    | error e => exact .inl ⟨_, rfl⟩
    | ok result =>
      cases call.faults.commit with
      | some e => exact .inl ⟨_, rfl⟩
      | none => exact .inr ⟨result.1, result.2, rfl, rfl⟩

/-- The effects of a call: those of its operation, and a row that records the result. -/
structure Commits (call : Call σ) (store after : host.Store) (row : SessionCommandRow) : Prop where
  row_eq : row = call.row row.resultJSON row.finalSequence
  operation : ∃ operation, checkCall call = .ok operation ∧
    operation store.rest = .ok ((row.resultJSON, row.finalSequence), after.rest)
  isObject : host.isObject row.resultJSON = true
  rows : after.commands.rows = store.commands.rows ++ [row]
  result : ∀ r, (host.executeSessionCommand call store).1 = .ok r →
    r = { row.replay with createdAt := call.now, replayed := false }

/-- A call changes nothing, and answers from a row if it succeeds. -/
def Idles (call : Call σ) (store : host.Store) : Prop :=
  host.step store call = store ∧
    ∀ r, (host.executeSessionCommand call store).1 = .ok r → r.replayed = true

/-- **A call commits all of its effects, or changes nothing.** -/
theorem step_cases (store : host.Store) (call : Call σ) :
    Idles call store ∨ ∃ row, Commits call store (host.step store call) row := by
  cases hcheck : checkCall call with
  | error e => exact .inl (by simp [Idles, step, executeSessionCommand, hcheck])
  | ok operation =>
    rcases execute_cases hcheck store with ⟨e, hexecute⟩ | ⟨result, written, htransact, hexecute⟩
    · exact .inl ⟨congrArg Prod.snd hexecute, by simp [hexecute]⟩
    · rw [Idles, show host.step store call = written from congrArg Prod.snd hexecute]
      simp only [transact, bind_ok_iff] at htransact
      obtain ⟨_, _, htransact⟩ := htransact
      split at htransact
      · simp only [run_ok_iff, Prod.mk.injEq] at htransact
        obtain ⟨_, _, rfl, rfl⟩ := htransact
        refine .inl ⟨rfl, fun r hr => ?_⟩
        rw [hexecute] at hr
        cases hrestore : call.faults.restore with
        | none =>
          obtain rfl : _ = r := by simpa [hrestore] using hr
          rfl
        | some e => simp [hrestore] at hr
      · simp only [run_ok_iff, Prod.mk.injEq, insertCommand, validateJSONObject,
          repositoryWriteError_ok_iff] at htransact
        obtain ⟨⟨⟨json, sequence⟩, rest⟩, hoperation, _, ⟨_, _, hobject⟩, commands,
          ⟨_, _, _, _, _, hinsert, _, _, rfl⟩, rfl, rfl⟩ := htransact
        refine .inr ⟨call.row json sequence, rfl, ⟨operation, hcheck, hoperation⟩, hobject,
          (Table.insert_ok_iff.1 hinsert).2, fun r hr => ?_⟩
        rw [hexecute] at hr
        cases hrestore : call.faults.restore with
        | none => simpa [hrestore, eq_comm] using hr
        | some e => simp [hrestore] at hr

/-- A key that has a row is answered from it, and nothing changes. -/
theorem executeSessionCommand_of_row (hrow : row ∈ store.commands.rows)
    (hsession : row.sessionID = call.command.sessionID)
    (hkey : row.idempotencyKey = call.command.idempotencyKey) :
    host.step store call = store ∧
      (row.requestSHA256 = call.command.requestSHA256 →
        (∃ operation, checkCall call = .ok operation) → call.faults = {} →
        (host.executeSessionCommand call store).1 = .ok row.replay) ∧
      (row.requestSHA256 ≠ call.command.requestSHA256 →
        ∃ e, (host.executeSessionCommand call store).1 = .error e) := by
  have hfind : host.find call.command store.commands = some row :=
    Table.find_eq_some hrow (by simp [hsession, hkey]) fun a b ha hb => by
      simp only [Bool.and_eq_true, beq_iff_eq] at ha hb
      simp [commandSchema, ha, hb]
  cases hcheck : checkCall call with
  | error e => simp [step, executeSessionCommand, hcheck]
  | ok operation =>
    refine ⟨?_, fun hsame _ hfaults => ?_, fun hother => ?_⟩
    · rcases execute_cases hcheck store with ⟨e, hexecute⟩ | ⟨_, _, htransact, hexecute⟩
      · exact congrArg Prod.snd hexecute
      · simp only [transact, hfind, run_ok_iff, Prod.mk.injEq] at htransact
        obtain ⟨_, _, _, _, _, rfl⟩ := htransact
        exact congrArg Prod.snd hexecute
    · simp [executeSessionCommand, hcheck, runInTransaction, transact, hfind, hsame, hfaults,
        ensure_of, pure, Except.pure, bind, Except.bind]
    · rcases execute_cases hcheck store with ⟨e, hexecute⟩ | ⟨_, _, htransact, _⟩
      · exact ⟨e, congrArg Prod.fst hexecute⟩
      · simp [transact, hfind, hother] at htransact

/-- The result of an operation passes its check, and a row with it the constraints. -/
structure Recordable (host : CommandHost σ) (call : Call σ) (rest : σ) (resultJSON : String)
    (finalSequence : UInt64) : Prop where
  object : host.validateJSONObject resultJSON (1024 * 1024) = .ok ()
  constraints : host.commandSchema.check (call.row resultJSON finalSequence) = true
  committed : ∃ current, host.currentSequence rest call.command.sessionID = some current ∧
    finalSequence ≤ current

/-- **A fresh key runs its operation.** -/
theorem execute_of_fresh {operation : σ → Result ((String × UInt64) × σ)} {json : String}
    {sequence : UInt64} {rest : σ} (hcheck : checkCall call = .ok operation)
    (hfresh : host.find call.command store.commands = none) (hfaults : call.faults = {})
    (hrun : operation store.rest = .ok ((json, sequence), rest))
    (hresult : host.Recordable call rest json sequence) :
    ∃ after : host.Store, host.executeSessionCommand call store =
        (.ok { (call.row json sequence).replay with createdAt := call.now, replayed := false },
          after) ∧ after.rest = rest := by
  obtain ⟨current, hcurrent, hle⟩ := hresult.committed
  have hcurrent : host.currentSequence rest (call.row json sequence).sessionID = some current :=
    hcurrent
  have hle : (call.row json sequence).finalSequence ≤ current := hle
  have hadmits : store.commands.Admits (call.row json sequence) := by
    refine ⟨hresult.constraints, fun row hrow => ?_⟩
    exact Bool.eq_false_iff.2 (List.find?_eq_none.1 hfresh row hrow)
  obtain ⟨commands, hinsert, -⟩ := Table.insert_of_admits hadmits
  refine ⟨⟨rest, commands⟩, ?_, rfl⟩
  have hwritten : host.insertCommand {} rest (call.row json sequence) store.commands =
      .ok commands := by
    simp [insertCommand, hinsert, repositoryWriteError, hcurrent, hle, ensure_of, bind, Except.bind,
      pure, Except.pure]
  simp [executeSessionCommand, hcheck, runInTransaction, hfaults, transact, hfresh, hrun,
    hresult.object, hwritten, bind, Except.bind, pure, Except.pure]

/-- A recorded result is never removed. -/
theorem mem_foldl_step (hrow : row ∈ store.commands.rows) (calls : List (Call σ)) :
    row ∈ (calls.foldl host.step store).commands.rows := by
  induction calls generalizing store with
  | nil => exact hrow
  | cons call calls ih =>
    refine ih ?_
    rcases step_cases store call with ⟨hsame, -⟩ | ⟨added, hcommits⟩
    · rwa [hsame]
    · rw [hcommits.rows]
      exact List.mem_append_left _ hrow

/-- **A session command runs at most once.** After any calls, a call commits all of its effects,
or changes nothing and only succeeds as a replay; it changes nothing when its operation fails.
When no row has its key, its operation succeeds with a result that can be recorded and the
database does not fail, it commits and returns that result. No later call with its key changes
anything: with the same hash it returns the first result unless the database fails it, and with a
different one it fails. -/
theorem sessionCommand_runs_once (store : host.Store) (earlier between : List (Call σ))
    (call later : Call σ) : let before := earlier.foldl host.step store
    let after := host.step before call
    let current := between.foldl host.step after
    (Idles call before ∨ ∃ row, Commits call before after row) ∧
    (∀ operation e, call.operation = some operation → operation before.rest = .error e →
      after = before) ∧
    (∀ operation json sequence rest, checkCall call = .ok operation →
      host.find call.command before.commands = none → call.faults = {} →
      operation before.rest = .ok ((json, sequence), rest) →
      host.Recordable call rest json sequence →
      Commits call before after (call.row json sequence) ∧
        (host.executeSessionCommand call before).1 = .ok
          { (call.row json sequence).replay with createdAt := call.now, replayed := false }) ∧
    ∀ row, Commits call before after row → later.command.sessionID = call.command.sessionID →
      later.command.idempotencyKey = call.command.idempotencyKey →
      host.step current later = current ∧
      (later.command.requestSHA256 = call.command.requestSHA256 → later.operation.isSome →
        later.faults = {} → (host.executeSessionCommand later current).1 = .ok row.replay) ∧
      (later.command.requestSHA256 ≠ call.command.requestSHA256 →
        ∃ e, (host.executeSessionCommand later current).1 = .error e) := by
  intro before after current
  refine ⟨step_cases before call, fun operation e hop hfails => ?_,
    fun operation json sequence rest hcheck hfresh hfaults hrun hresult => ?_,
    fun row hcommits hs hk => ?_⟩
  · refine ((step_cases before call).resolve_right ?_).1
    rintro ⟨row, hcommits⟩
    obtain ⟨run, hcheck, hrun⟩ := hcommits.operation
    simp only [checkCall, hop, Option.elim_some, run_ok_iff, Except.ok.injEq,
      exists_eq_left'] at hcheck
    obtain ⟨_, _, _, _, _, _, rfl⟩ := hcheck
    simp [hfails] at hrun
  · obtain ⟨_, hexecute, -⟩ := execute_of_fresh hcheck hfresh hfaults hrun hresult
    refine ⟨?_, congrArg Prod.fst hexecute⟩
    rcases step_cases before call with ⟨-, hreplay⟩ | ⟨row, hcommits⟩
    · cases hreplay _ (congrArg Prod.fst hexecute)
    · obtain ⟨run, hcheck', hrun'⟩ := hcommits.operation
      obtain rfl : operation = run := Except.ok.inj (hcheck.symm.trans hcheck')
      have hsame := Except.ok.inj (hrun.symm.trans hrun')
      simp only [Prod.mk.injEq] at hsame
      rw [hsame.1.1, hsame.1.2, ← hcommits.row_eq]
      exact hcommits
  · have hmem : row ∈ current.commands.rows :=
      mem_foldl_step (by rw [hcommits.rows]; simp) between
    have hcommand : row.toSessionCommand = call.command := by rw [hcommits.row_eq]; rfl
    have hsession : row.sessionID = later.command.sessionID := by rw [hcommand, hs]
    obtain ⟨hsame, hreplay, hconflict⟩ :=
      executeSessionCommand_of_row hmem hsession (by rw [hcommand, hk])
    rw [hcommand] at hreplay hconflict
    refine ⟨hsame, fun hhash hop hfaults => hreplay hhash.symm ?_ hfaults,
      fun hhash => hconflict (Ne.symm hhash)⟩
    obtain ⟨operation, hop⟩ := Option.isSome_iff_exists.1 hop
    obtain ⟨_, hcheck, _⟩ := hcommits.operation
    simp only [checkCall, run_ok_iff, exists_const, hs, hk, hhash, hop,
      Option.elim_some] at hcheck ⊢
    obtain ⟨hzero, _, _, _, hbounded, hvalid, _⟩ := hcheck
    exact ⟨operation, hzero, operation, rfl, (), hbounded, hvalid, rfl⟩

/-- A database whose rest is the sequence of its one session. -/
def counterHost : CommandHost UInt64 where
  isObject := (· == "\x7b\x7d")
  jsonColumn := (· == "\x7b\x7d")
  currentSequence sequence _ := some sequence

/-- Raises the sequence by one. -/
def raise (sequence : UInt64) : Result ((String × UInt64) × UInt64) :=
  .ok (("\x7b\x7d", sequence + 1), sequence + 1)

/-- A key for it. -/
def raiseCommand : SessionCommand :=
  ⟨⟨"ses_0190a5b0-0000-7000-8000-000000000041", .inr (by decide)⟩, "raise",
    "aaaaaaaaaaaaaaaaaaaaaaaaaaaaaaaaaaaaaaaaaaaaaaaaaaaaaaaaaaaaaaaa"⟩

/-- A call with that key and operation. -/
def raiseCall (now : Timestamp) : Call UInt64 where
  command := raiseCommand
  operation := some raise
  now

theorem checkCall_raiseCall (now : Timestamp) : checkCall (raiseCall now) = .ok raise := by
  simp only [checkCall, raiseCall, run_ok_iff]
  exact ⟨(), ensure_of (by decide) _, raise, rfl, (), by decide, (),
    ensure_of (by decide) _, rfl⟩

/-- The first call raises the sequence, and the second repeats its result. -/
theorem raise_once : let store : counterHost.Store := ⟨6, .empty⟩
    let first := raiseCall (ofUnixMicro 10)
    let after := counterHost.step store first
    (counterHost.executeSessionCommand first store).1.map (·.finalSequence) = .ok 7 ∧
      after.rest = 7 ∧ counterHost.step after (raiseCall (ofUnixMicro 20)) = after ∧
      (counterHost.executeSessionCommand (raiseCall (ofUnixMicro 20)) after).1 =
        .ok (first.row "\x7b\x7d" 7).replay := by
  intro store first after
  obtain ⟨-, -, hfresh, hlater⟩ :=
    sessionCommand_runs_once store [] [] first (raiseCall (ofUnixMicro 20))
  rw [List.foldl_nil] at hfresh hlater
  obtain ⟨hcommits, hresult⟩ := hfresh raise "\x7b\x7d" 7 7 (checkCall_raiseCall _) rfl rfl rfl
    ⟨by decide, by decide, 7, rfl, by decide⟩
  obtain ⟨hsame, hreplay, -⟩ := hlater _ hcommits rfl rfl
  exact ⟨by rw [hresult]; rfl, by decide, hsame, hreplay rfl rfl rfl⟩

end CommandHost

end Codeflux.Storage
