import Codeflux.Gitwork.EditBatch

/-!
# Failed edit batches and concurrent changes

The rollback of a batch does not ask whether it is the batch that changed a path. So it also
overwrites what an external writer put there since the preflight, be it on a path the batch never
reached or on the very path whose concurrent change made the batch fail.
-/

namespace Codeflux.Gitwork

open Library Go Domain List

variable {initial : Tree} {schedule : List Moment} {paths : List String} {w : World}
  {originals : List (String × FileSnapshot)} {sha256 : Bytes → String}
  {binding : WorktreeBindingState} {path : String} {snapshot : FileSnapshot}
  {mutation : FileMutation}

/-! ### The preflight -/

/-- The worktree is what the external writer alone made of it, and the snapshots show their paths as
they were read, one in each step. -/
structure Captured (initial : Tree) (schedule : List Moment) (binding : WorktreeBindingState)
    (originals : List (String × FileSnapshot)) (w : World) : Prop where
  schedule_eq : w.schedule = schedule
  clock_eq : w.clock = originals.length
  tree_eq : w.tree = written schedule 0 initial w.clock
  distinct : (originals.map Prod.fst).Nodup
  resolved : ∀ x ∈ originals, resolveTaskPath binding x.1 = .ok x.1
  shown : ∀ i x, originals[i]? = some x → x.2.file = written schedule 0 initial (i + 1) x.1

theorem written_advance (hschedule : w.schedule = schedule)
    (htree : w.tree path = written schedule 0 initial w.clock path) :
    w.advance.tree path = written schedule 0 initial w.advance.clock path := by
  subst hschedule
  exact (interfere_eq_iff _).2 (.inr htree)

theorem Captured.read (h : Captured initial schedule binding originals w)
    (hnew : path ∉ originals.map Prod.fst) (hresolved : resolveTaskPath binding path = .ok path)
    (hfile : snapshot.file = w.advance.tree path) :
    Captured initial schedule binding (originals ++ [(path, snapshot)]) w.advance := by
  have htree : w.advance.tree = written schedule 0 initial w.advance.clock :=
    funext fun path => written_advance h.schedule_eq (congrFun h.tree_eq path)
  have hclock : w.advance.clock = originals.length + 1 := congrArg (· + 1) h.clock_eq
  refine ⟨h.schedule_eq, by simpa using hclock, htree, ?_, ?_, ?_⟩
  · rw [map_append, map_singleton, nodup_append]
    refine ⟨h.distinct, nodup_singleton _, ?_⟩
    intro a ha b hb
    rw [mem_singleton.1 hb]
    exact ne_of_mem_of_not_mem ha hnew
  · rw [forall_mem_append, forall_mem_singleton]
    exact ⟨h.resolved, hresolved⟩
  · intro i x hx
    rcases lt_trichotomy i originals.length with hlt | rfl | hgt
    · exact h.shown i x (by rwa [getElem?_append_left hlt] at hx)
    · obtain rfl : (path, snapshot) = x := by simpa using hx
      rw [hfile, htree, hclock]
    · rw [getElem?_eq_none (by rw [length_append, length_singleton]; exact hgt)] at hx
      cases hx

theorem wrapping_triple {α : Type} {P : World → Prop} {Q : α → World → Prop}
    {E : World → Prop} {context : String} {m : Effect World Failure α}
    (h : Triple P m Q fun _ => E) : Triple P (wrapping context m) Q fun _ => E :=
  h.recover fun _ => Triple.fail fun _ hw => hw

theorem readFileAtRevision_triple (hnew : path ∉ originals.map Prod.fst) :
    Triple (Captured initial schedule binding originals) (readFileAtRevision sha256 binding path)
      (fun snapshot => Captured initial schedule binding (originals ++ [(path, snapshot)]))
      fun _ _ => True := by
  refine fileStep_triple (fun _ _ _ => trivial) fun w hw => ?_
  cases hread : (do snapshotOf sha256 (← resolveTaskPath binding path) (w.advance.tree path) :
      Result FileSnapshot) with
  | error e => trivial
  | ok snapshot =>
    obtain ⟨resolved, hresolved, hsnapshot⟩ := bind_ok_iff.1 hread
    obtain rfl := resolveTaskPath_ok hresolved
    exact hw.read hnew hresolved (snapshotOf_file sha256 hsnapshot)

/-- The preflight's knowledge of the paths `done`. -/
def CapturedPaths (initial : Tree) (schedule : List Moment) (binding : WorktreeBindingState)
    (done : List String) (originals : List (String × FileSnapshot)) (w : World) : Prop :=
  Captured initial schedule binding originals w ∧ originals.map Prod.fst = done

theorem capturePaths_triple (captured done : List String)
    (originals : List (String × FileSnapshot)) :
    Triple (CapturedPaths initial schedule binding done originals)
      (capturePaths sha256 binding originals captured)
      (CapturedPaths initial schedule binding (done ++ captured)) fun _ _ => True := by
  induction captured generalizing done originals with
  | nil => exact Triple.pure fun w hw => by rwa [append_nil]
  | cons path captured ih =>
    refine Triple.ite (fun _ => Triple.fail fun _ _ => trivial) fun hnew => ?_
    have hread : Triple (CapturedPaths initial schedule binding done originals)
        (readFileAtRevision sha256 binding path)
        (fun snapshot => CapturedPaths initial schedule binding (done ++ [path])
          (originals ++ [(path, snapshot)])) fun _ _ => True := by
      rintro w ⟨hw, rfl⟩
      exact (readFileAtRevision_triple hnew).conseq (fun _ hw => hw)
        (fun _ _ hw => ⟨hw, by simp⟩) (fun _ _ _ => trivial) w hw
    refine hread.bind fun snapshot => ?_
    have hrest := ih (done ++ [path]) (originals ++ [(path, snapshot)])
    rwa [append_assoc, singleton_append] at hrest

theorem preflightMutation_triple (done : List String) (pf : Preflight) (index : Nat) :
    Triple (CapturedPaths initial schedule binding done pf.originals)
      (preflightMutation sha256 binding pf index mutation)
      (fun pf => CapturedPaths initial schedule binding (done ++ mutationPaths mutation)
        pf.originals) fun _ _ => True := by
  have hvalid : Triple (CapturedPaths initial schedule binding done pf.originals)
      (wrapping ("mutation " ++ toString index) (Effect.lift (validateMutation mutation)))
      (fun _ => CapturedPaths initial schedule binding done pf.originals) fun _ _ => True :=
    wrapping_triple (Triple.lift (fun _ _ _ hw => hw) fun _ _ _ _ => trivial)
  refine hvalid.bind fun _ => (capturePaths_triple _ done pf.originals).bind fun originals => ?_
  refine Triple.lift_bind (fun _ _ _ => trivial) fun _ _ => ?_
  refine Triple.lift_bind (fun _ _ _ => trivial) fun _ _ => ?_
  exact Triple.ite (fun _ => Triple.pure fun w hw => hw) fun _ => Triple.pure fun w hw => hw

theorem preflight_triple (mutations : List FileMutation) (done : List String) (index : Nat)
    (pf : Preflight) :
    Triple (CapturedPaths initial schedule binding done pf.originals)
      (preflight sha256 binding index pf mutations)
      (fun pf => CapturedPaths initial schedule binding (done ++ mutations.flatMap mutationPaths)
        pf.originals) fun _ _ => True := by
  induction mutations generalizing done index pf with
  | nil => exact Triple.pure fun w hw => by rwa [flatMap_nil, append_nil]
  | cons mutation mutations ih =>
    refine (preflightMutation_triple done pf index).bind fun pf => ?_
    rw [flatMap_cons, ← append_assoc]
    exact ih _ (index + 1) pf

/-- **The preflight reads one path in each step**, in the order of the batch. -/
theorem checkBatch_triple (service : Service) (input : ApplyEditBatchInput) :
    Triple (fun w => w = World.start initial schedule) (checkBatch sha256 service input)
      (fun checked => CapturedPaths initial schedule checked.1 input.paths checked.2)
      fun _ _ => True := by
  refine Triple.lift_bind (fun _ _ _ => trivial) fun _ _ => ?_
  refine Triple.lift_bind (fun _ _ _ => trivial) fun _ _ => ?_
  refine Triple.lift_bind (fun _ _ _ => trivial) fun _ _ => ?_
  refine Triple.lift_bind (fun _ _ _ => trivial) fun binding _ => ?_
  have hpreflight : Triple (fun w => w = World.start initial schedule)
      (preflight sha256 binding 0 ⟨[], 0, 0⟩ input.mutations)
      (fun pf => CapturedPaths initial schedule binding input.paths pf.originals)
      fun _ _ => True := by
    rintro _ rfl
    exact preflight_triple input.mutations [] 0 ⟨[], 0, 0⟩ _
      ⟨⟨rfl, rfl, rfl, nodup_nil, fun x hx => absurd hx not_mem_nil, by simp⟩, rfl⟩
  refine hpreflight.bind fun pf => Triple.lift_bind (fun _ _ _ => trivial) fun _ _ => ?_
  exact Triple.pure fun _ hw => hw

/-! ### The mutations -/

/-- Outside `paths` the worktree is what the external writer alone made of it. -/
structure Outside (initial : Tree) (schedule : List Moment) (paths : List String) (began : Nat)
    (w : World) : Prop where
  schedule_eq : w.schedule = schedule
  began_le : began ≤ w.clock
  tree_eq : ∀ path ∉ paths, w.tree path = written schedule 0 initial w.clock path

variable {began : Nat}

theorem Outside.advance (h : Outside initial schedule paths began w) :
    Outside initial schedule paths began w.advance :=
  ⟨h.schedule_eq, h.began_le.trans w.clock.le_succ, fun path hpath =>
    written_advance h.schedule_eq (h.tree_eq path hpath)⟩

theorem Outside.put (h : Outside initial schedule paths began w) (hpath : path ∈ paths)
    (file : Option File) : Outside initial schedule paths began (w.put path file) := by
  refine ⟨h.schedule_eq, h.began_le, fun other hother => ?_⟩
  have hne : other ≠ path := fun heq => hother (heq ▸ hpath)
  exact (Function.update_of_ne hne _ _).trans (h.tree_eq other hother)

theorem fileStep_keeps {α : Type} {body : World → Result α × World}
    (hbody : ∀ w, Outside initial schedule paths began w →
      Outside initial schedule paths began (body w).2) :
    Keeps (Outside initial schedule paths began) (fileStep body) := by
  refine fileStep_triple (fun _ _ hw => hw.advance) fun w hw => ?_
  have hend := hbody _ hw.advance
  generalize body w.advance = run at hend
  rcases run with ⟨_ | _, _⟩
  all_goals exact hend

theorem applyFileMutation_keeps {before : FileSnapshot}
    (hpaths : ∀ path ∈ mutationPaths mutation, path ∈ paths) :
    Keeps (Outside initial schedule paths began)
      (applyFileMutation sha256 binding mutation before) := by
  have hpath : mutation.path ∈ paths := hpaths _ (by unfold mutationPaths; split_ifs <;> simp)
  refine Keeps.lift_bind fun source hsource => ?_
  obtain rfl := resolveTaskPath_ok hsource
  cases hoperation : mutation.operation with
  | create | update => exact (fileStep_keeps fun w hw => hw.put hpath _).bind fun _ => Keeps.pure _
  | rename =>
    refine Keeps.lift_bind fun destination hdestination => ?_
    obtain rfl := resolveTaskPath_ok hdestination
    have hnew : mutation.newPath ∈ paths := hpaths _ (by simp [mutationPaths, hoperation])
    refine (wrapping_triple (fileStep_keeps fun w hw => ?_)).bind fun _ => Keeps.pure _
    cases w.tree mutation.path with
    | none => exact hw
    | some file => exact (hw.put hpath none).put hnew (some file)
  | delete =>
    refine (wrapping_triple (fileStep_keeps fun w hw => ?_)).bind fun _ => Keeps.pure _
    split_ifs
    · exact hw
    · exact hw.put hpath none
  | other text => exact Keeps.pure _

theorem applyMutations_keeps (mutations : List FileMutation)
    (hpaths : ∀ path ∈ mutations.flatMap mutationPaths, path ∈ paths) :
    Keeps (Outside initial schedule paths began)
      (applyMutations sha256 binding originals mutations) := by
  induction mutations with
  | nil => exact Keeps.pure _
  | cons mutation mutations ih =>
    have hread : Keeps (Outside initial schedule paths began)
        (readFileAtRevision sha256 binding mutation.path) := fileStep_keeps fun w hw => hw
    refine hread.bind fun current => Keeps.ite (fun _ => Keeps.fail _) fun _ => ?_
    have hhead := fun path h => hpaths path (mem_append_left _ h)
    refine (applyFileMutation_keeps hhead).bind fun result => ?_
    refine (ih fun path h => hpaths path (mem_append_right _ h)).bind fun results => ?_
    exact Keeps.pure _

theorem mutateAndRecord_keeps {input : ApplyEditBatchInput} :
    Keeps (Outside initial schedule input.paths began)
      (mutateAndRecord sha256 binding input originals) := by
  refine (applyMutations_keeps _ fun _ hpath => hpath).bind fun results => ?_
  exact (wrapping_triple (fileStep_keeps fun _ hw => hw)).bind fun _ => Keeps.pure _

/-! ### The rollback -/

theorem restoreSnapshot_run (snapshot : FileSnapshot)
    (hresolved : resolveTaskPath binding path = .ok path) (hfault : w.moment.fault = none) :
    restoreSnapshot binding path snapshot w = (.ok (), w.advance.put path snapshot.file) := by
  unfold restoreSnapshot
  rw [Effect.lift_bind hresolved]
  cases hpresent : snapshot.present with
  | true =>
    simp [wrapping, Effect.recover, writeAtomic, fileStep, hfault, FileSnapshot.file, hpresent]
  | false =>
    have hfile : snapshot.file = none := by simp [FileSnapshot.file, hpresent]
    rw [if_neg (by simp), hfile]
    by_cases hnone : w.advance.tree path = none
    · have hput : w.advance.put path none = w.advance := by
        rw [World.put, ← hnone, Function.update_eq_self]
      have his : Failure.Is errNotExist errNotExist = true := by decide
      rw [hput]
      simp [Effect.recover, removeFile, fileStep, hfault, hnone, his, Pure.pure, Effect.pure]
    · simp [Effect.recover, removeFile, fileStep, hfault, hnone]

/-- **A rollback without faults** puts back one path in each step. Afterwards only the external
writer changes it. -/
theorem restoreEach_run (xs : List (String × FileSnapshot))
    (hresolved : ∀ x ∈ xs, resolveTaskPath binding x.1 = .ok x.1)
    (hdistinct : (xs.map Prod.fst).Nodup)
    (hfaults : ∀ k < xs.length, (momentAt w.schedule (w.clock + k)).fault = none) :
    ∃ w', restoreEach binding xs w = (.ok [], w') ∧ w'.schedule = w.schedule ∧
      w'.clock = w.clock + xs.length ∧
      (∀ path ∉ xs.map Prod.fst,
        w'.tree path = written w.schedule w.clock w.tree w'.clock path) ∧
      ∀ j x, xs[j]? = some x → w'.tree x.1 =
        written w.schedule (w.clock + j + 1) (fun _ => x.2.file) w'.clock x.1 := by
  induction xs generalizing w with
  | nil => exact ⟨w, rfl, rfl, rfl, fun path _ => by rw [written_self], by simp⟩
  | cons x xs ih =>
    rw [map_cons, nodup_cons] at hdistinct
    rw [forall_mem_cons] at hresolved
    have hrest : ∀ k < xs.length, (momentAt w.schedule (w.clock + 1 + k)).fault = none := by
      intro k hk
      have hfault := hfaults (k + 1) (by simpa using hk)
      rwa [← Nat.add_assoc, Nat.add_right_comm] at hfault
    obtain ⟨w', hrun, hschedule, hclock, hothers, hput⟩ := @ih (w.advance.put x.1 x.2.file)
      hresolved.2 hdistinct.2 hrest
    change w'.clock = w.clock + 1 + xs.length at hclock
    have hhead : w'.tree x.1 =
        written w.schedule (w.clock + 1) (fun _ => x.2.file) w'.clock x.1 :=
      (hothers x.1 hdistinct.1).trans (written_congr (Function.update_self _ _ _))
    refine ⟨w', ?_, hschedule, ?_, fun path hpath => ?_, fun j y hy => ?_⟩
    · have hfirst := restoreSnapshot_run x.2 hresolved.1 (hfaults 0 (by simp))
      simp only [restoreEach, Bind.bind, Effect.bind, Effect.recover, hfirst, Pure.pure,
        Effect.pure, hrun, nil_append]
    · rw [hclock, length_cons]
      omega
    · rw [map_cons, mem_cons, not_or] at hpath
      rw [hothers path hpath.2, ← written_written (Nat.le_succ w.clock) (by omega)]
      refine written_congr ((Function.update_of_ne hpath.1 _ _).trans ?_)
      show _ = written w.schedule w.clock w.tree (w.clock + 1) path
      rw [written, if_pos le_rfl, written_self]
      rfl
    · cases j with
      | zero =>
        obtain rfl : x = y := by simpa using hy
        exact hhead
      | succ j =>
        rw [hput j y (by simpa using hy), ← Nat.add_assoc, Nat.add_right_comm w.clock j 1]
        rfl

theorem restoreOrder_perm (originals : List (String × FileSnapshot)) :
    (restoreOrder originals).Perm originals := by
  refine Perm.trans ?_ (perm_insertionSort (fun x y => x.1 ≤ y.1) originals)
  refine perm_append_comm.trans ?_
  exact filter_append_perm (fun x : String × FileSnapshot => x.2.present) _

/-- Each path of the batch has the last value the external writer gave it since the step that read
it, and what was read when the writer left it alone. The writer alone acts on every other path. -/
structure World.Spares (initial : Tree) (paths : List String) (w : World) : Prop where
  captured : ∀ i path, paths[i]? = some path → w.tree path =
    written w.schedule (i + 1) (written w.schedule 0 initial (i + 1)) w.clock path
  others : ∀ path ∉ paths, w.tree path = written w.schedule 0 initial w.clock path

/-- What the external writer makes of a path is the same before the steps `read` and `restored`, or
the writer writes the path again before the batch has ended. -/
def Undisturbed (initial : Tree) (schedule : List Moment) (path : String)
    (read restored ended : Nat) : Prop :=
  Writes schedule path restored ended ∨
    written schedule 0 initial read path = written schedule 0 initial restored path

theorem undisturbed_of_not_writes {read restored ended : Nat} (hle : read ≤ restored)
    (h : ¬Writes schedule path read restored) :
    Undisturbed initial schedule path read restored ended := by
  refine .inr ?_
  rw [← written_written read.zero_le hle, written_of_not_writes h]

/-- A path that was read as it is put back is spared exactly when it is undisturbed. -/
theorem spared_iff {read restored ended : Nat} {file : Option File} (hread : read ≤ restored)
    (hrestored : restored ≤ ended) (hfile : file = written schedule 0 initial read path) :
    written schedule restored (fun _ => file) ended path =
        written schedule read (written schedule 0 initial read) ended path ↔
      Undisturbed initial schedule path read restored ended := by
  rw [written_written read.zero_le (hread.trans hrestored),
    ← written_written restored.zero_le hrestored, written_eq_iff, hfile]
  rfl

/-- The time in which a change of a path is lost: after the preflight's step that reads the path, up
to the rollback's step on it. -/
def Window (paths : List String) (originals : List (String × FileSnapshot)) (failed : Nat)
    (path : String) (read restored : Nat) : Prop :=
  ∃ i j snapshot, paths[i]? = some path ∧ (restoreOrder originals)[j]? = some (path, snapshot) ∧
    read = i + 1 ∧ restored = failed + j + 1

/-- The snapshot that is put back shows what the preflight's step on its path read. -/
theorem CapturedPaths.shown {i j : Nat}
    (h : CapturedPaths initial schedule binding paths originals w) (hi : paths[i]? = some path)
    (hj : (restoreOrder originals)[j]? = some (path, snapshot)) :
    i < originals.length ∧ j < originals.length ∧
      snapshot.file = written schedule 0 initial (i + 1) path := by
  obtain ⟨hcaptured, rfl⟩ := h
  have hperm := restoreOrder_perm originals
  rw [getElem?_map, Option.map_eq_some_iff] at hi
  obtain ⟨⟨_, shown⟩, hx, rfl⟩ := hi
  have hsame := inj_on_of_nodup_map hcaptured.distinct (mem_of_getElem? hx)
    (hperm.mem_iff.1 (mem_of_getElem? hj)) rfl
  obtain rfl : shown = snapshot := congrArg Prod.snd hsame
  refine ⟨(List.getElem?_eq_some_iff.1 hx).1, ?_, hcaptured.shown i _ hx⟩
  rw [← hperm.length_eq]
  exact (List.getElem?_eq_some_iff.1 hj).1

section Failed

variable {service : Service} {input : ApplyEditBatchInput} {checked failed : World} {e : Failure}

/-- The end of a batch that fails after its preflight, when no step of the rollback fails. -/
theorem applyEditBatch_rolledBack
    (hchecked : checkBatch sha256 service input (World.start initial schedule) =
      (.ok (binding, originals), checked))
    (hfailed : mutateAndRecord sha256 binding input originals checked = (.error e, failed))
    (hrollback : ∀ k < originals.length, (momentAt schedule (failed.clock + k)).fault = none) :
    ∃ w, applyEditBatch sha256 service input (World.start initial schedule) = (.error [e], w) ∧
      w.schedule = schedule ∧ w.clock = failed.clock + originals.length ∧
      (∀ path ∉ input.paths, w.tree path = written schedule 0 initial w.clock path) ∧
      ∀ path read restored, Window input.paths originals failed.clock path read restored →
        read ≤ restored ∧ (w.tree path =
          written schedule read (written schedule 0 initial read) w.clock path ↔
            Undisturbed initial schedule path read restored w.clock) := by
  have hpaths : CapturedPaths initial schedule binding input.paths originals checked :=
    (checkBatch_triple service input).ok_of rfl hchecked
  have houtside : Outside initial schedule input.paths originals.length failed :=
    mutateAndRecord_keeps.error_of ⟨hpaths.1.schedule_eq, hpaths.1.clock_eq.ge, fun path _ =>
      congrFun hpaths.1.tree_eq path⟩ hfailed
  have hlate := houtside.began_le
  have hperm := restoreOrder_perm originals
  obtain ⟨w, hrun, hschedule, hclock, hothers, hput⟩ := @restoreEach_run failed binding
    (restoreOrder originals) (fun x hx => hpaths.1.resolved x (hperm.mem_iff.1 hx))
    ((hperm.map _).nodup_iff.2 hpaths.1.distinct)
    (by rwa [hperm.length_eq, houtside.schedule_eq])
  rw [houtside.schedule_eq] at hschedule hothers hput
  rw [hperm.length_eq] at hclock
  refine ⟨w, ?_, hschedule, hclock, fun path hpath => ?_, ?_⟩
  · simp only [applyEditBatch, Bind.bind, Effect.bind, Effect.recover, hchecked, hfailed,
      restoreSnapshots, hrun, Effect.fail]
  · have hnotMem : path ∉ (restoreOrder originals).map Prod.fst := by
      rwa [(hperm.map _).mem_iff, hpaths.2]
    rw [hothers path hnotMem, written_congr (houtside.tree_eq path hpath),
      written_written (Nat.zero_le _) (by omega)]
  · rintro path read restored ⟨i, j, snapshot, hi, hj, rfl, rfl⟩
    obtain ⟨hilt, hjlt, hfile⟩ := hpaths.shown hi hj
    refine ⟨by omega, ?_⟩
    rw [hput j _ hj]
    exact spared_iff (by omega) (by omega) hfile

end Failed

/-- A service with an active worktree and a recorder. -/
def noteService : Service := ⟨fun _ => .ok .active, true⟩

theorem noteTaskID_canonical : "tsk_0190a5b0-0000-7000-8000-000000000031" = "" ∨
    checkTypedID .task "tsk_0190a5b0-0000-7000-8000-000000000031" = .ok () :=
  .inr (by decide)

/-- A batch that creates one file. -/
def noteBatch : ApplyEditBatchInput where
  taskID := ⟨"tsk_0190a5b0-0000-7000-8000-000000000031", noteTaskID_canonical⟩
  mutations := [⟨.create, "notes.txt", "", bytes "batch", "", true, false⟩]
  largeDeleteApproved := false

/-- The run of `noteBatch` in an empty worktree. -/
def noteRun (schedule : List Moment) : Except (List Failure) EditBatchResult × World :=
  applyEditBatch (fun _ => "") noteService noteBatch (World.start (fun _ => none) schedule)

/-- The external writer writes another file before the mutation, and the recorder fails. -/
def unrecorded : List Moment :=
  [⟨[], none⟩, ⟨[], none⟩, ⟨[("other.txt", some ⟨bytes "user", 0o644⟩)], none⟩,
    ⟨[], some (.new "store is closed")⟩]

end Codeflux.Gitwork
