import VelumOS.Spec.Tasks
import VelumOS.Guarantees.ScatterCoverage

/-!
# The ledger of scattered tasks without crashes

`pending_tasks` has one slot per worker, filled by the scatter call and emptied by
nothing but a disconnect: a result is printed and the slot stays, and a second
request to the same worker overwrites the first. `LedgerExact` is what the ledger
is for, against the history of unanswered tasks.
-/
namespace VelumOS.Guarantees.LedgerExactness
open VelumOS.Source VelumOS.Spec Base.Runs Base.KeyedStore ScatterCoverage

/-- A scattered task is in the ledger, under its worker, exactly while it is not
answered. -/
def LedgerExact (s : Node) (tasks : List Unanswered) : Prop :=
  ∀ (worker : Int) (msg : Message), s.pendingTasks worker = some msg ↔
    ∃ task ∈ tasks, task.call = .distributed ∧ (task.worker : Int) = worker ∧ task.msg = msg

/-- The step overwrites no slot that is in use and brings no result of a scattered
task. -/
structure LedgerSafe (s : Node) (tasks : List Unanswered) (event : Event) : Prop where
  calls : ∀ ctx f func start stop, event = .distributed ctx (some f) func start stop →
    f.fsize ≤ 2000 → ∀ task ∈ tasks, task.call = .distributed →
    task.worker ∉ s.findAllWorkers s.myNodeId
  results : ∀ slot piece nonempty fits ctx, event = .read slot (.data piece nonempty fits) ctx →
    slot.serviced = true → 0 < (s.sock slot).val →
    (s.messageRead piece fits).type = .taskResult →
    ∀ task, tasks.find? (answers (s.messageRead piece fits)) = some task → task.call ≠ .distributed

/-- The exactness only depends on which scattered tasks are unanswered. -/
theorem LedgerExact.congr {s after : Node} {tasks later : List Unanswered}
    (exact_ : LedgerExact s tasks) (ledger : after.pendingTasks = s.pendingTasks)
    (same : ∀ worker msg, (∃ task ∈ later, task.call = .distributed ∧
        (task.worker : Int) = worker ∧ task.msg = msg) ↔
      ∃ task ∈ tasks, task.call = .distributed ∧ (task.worker : Int) = worker ∧ task.msg = msg) :
    LedgerExact after later := by
  intro worker msg
  rw [ledger, exact_ worker msg, same]

/-- Erasing a task of the other call leaves the scattered ones. -/
theorem scattered_mem_eraseP (tasks : List Unanswered) (p : Unanswered → Bool) (task : Unanswered)
    (scattered : task.call = .distributed)
    (first : ∀ found, tasks.find? p = some found → found.call ≠ .distributed) :
    task ∈ tasks.eraseP p ↔ task ∈ tasks := by
  constructor
  · exact List.mem_of_mem_eraseP
  · intro member
    cases found : tasks.find? p with
    | none =>
      have unmatched := List.find?_eq_none.mp found task member
      exact (List.mem_eraseP_of_neg unmatched).mpr member
    | some erased =>
      obtain ⟨matched, front, back, rfl, unmatched⟩ := List.find?_eq_some_iff_append.mp found
      have rest : (front ++ erased :: back).eraseP p = front ++ back := by
        rw [List.eraseP_append_right _ (by simpa using unmatched), List.eraseP_cons_of_pos matched]
      rw [rest]
      rcases List.mem_append.mp member with before | behind
      · exact List.mem_append_left _ before
      · rcases List.mem_cons.mp behind with same | after
        · exact absurd (same ▸ scattered) (first erased found)
        · exact List.mem_append_right _ after

/-- The answer of a task of the other call leaves the ledger exact. -/
theorem LedgerExact.answered {s after : Node} {tasks : List Unanswered} {p : Unanswered → Bool}
    (exact_ : LedgerExact s tasks) (ledger : after.pendingTasks = s.pendingTasks)
    (first : ∀ found, tasks.find? p = some found → found.call ≠ .distributed) :
    LedgerExact after (tasks.eraseP p) := by
  apply exact_.congr ledger
  intro worker msg
  constructor
  · intro found
    obtain ⟨task, member, rest⟩ := found
    exact ⟨task, List.mem_of_mem_eraseP member, rest⟩
  · intro found
    obtain ⟨task, member, scattered, rest⟩ := found
    exact ⟨task, (scattered_mem_eraseP tasks p task scattered first).mpr member, scattered, rest⟩

/-- Tasks scattered to workers that owe nothing join an exact ledger. -/
theorem LedgerExact.scattered {s after : Node} {tasks : List Unanswered} {sent : List Dispatch}
    (exact_ : LedgerExact s tasks)
    (workers : (sent.map Dispatch.worker).Sublist (s.findAllWorkers s.myNodeId))
    (ledger : after.pendingTasks = storeAll s.pendingTasks (ledgerEntries sent))
    (free : ∀ task ∈ tasks, task.call = .distributed →
      task.worker ∉ s.findAllWorkers s.myNodeId) :
    LedgerExact after (tasks ++ sent.map (Dispatch.unanswered .distributed)) := by
  intro worker msg
  rw [ledger, storeAll_eq_some_iff _ _ _ _ (ledgerEntries_unique s sent workers), exact_ worker msg]
  constructor
  · intro held
    rcases held with new | ⟨_, task, member, rest⟩
    · obtain ⟨task, member, same⟩ := List.mem_map.mp new
      cases same
      exact ⟨_, List.mem_append_right _ (List.mem_map_of_mem member), rfl, rfl, rfl⟩
    · exact ⟨task, List.mem_append_left _ member, rest⟩
  · intro found
    obtain ⟨task, member, scattered, key, same⟩ := found
    rcases List.mem_append.mp member with old | new
    · refine .inr ⟨fun again => ?_, task, old, scattered, key, same⟩
      -- a worker sent to again would owe the answer of `task`
      obtain ⟨entry, inside, rfl⟩ := List.mem_map.mp again
      obtain ⟨other, sentTo, rfl⟩ := List.mem_map.mp inside
      have listed := workers.subset (List.mem_map_of_mem sentTo)
      rw [← Int.ofNat.inj key] at listed
      exact free task old scattered listed
    · obtain ⟨other, inside, rfl⟩ := List.mem_map.mp new
      refine .inl (List.mem_map.mpr ⟨other, inside, ?_⟩)
      rw [← key, ← same]
      rfl

/-- One safe step that closes no connection keeps the ledger exact. -/
theorem ledgerExact_step {s after : Node} {tasks : List Unanswered} {event : Event}
    {actions : List Action} (effect : Effect s event actions after)
    (calm : ∀ slot ctx, event ≠ .read slot .failed ctx) (exact_ : LedgerExact s tasks)
    (safe : LedgerSafe s tasks event) : LedgerExact after (actions.foldl follow tasks) := by
  cases effect with
  | quiet sends =>
    rw [follow_sends tasks _ sends]
    exact exact_
  | connected => exact exact_
  | admitted => exact exact_
  | failedAccept => exact exact_
  | @refused ns =>
    apply exact_.congr rfl
    intro worker msg
    show (∃ task ∈ tasks.map (Unanswered.afterClose ns), _) ↔ _
    simp
  | @closed slot ctx => exact absurd rfl (calm slot ctx)
  | @received slot piece nonempty fits ctx sends status live serviced onlySends =>
    rw [List.foldl_cons, follow_sends _ _ onlySends, follow]
    split
    · next result =>
      exact exact_.answered rfl (safe.results slot piece nonempty fits ctx rfl serviced live result)
    · exact exact_
  | spawned task =>
    apply exact_.congr rfl
    intro worker msg
    show (∃ other ∈ tasks ++ [Dispatch.unanswered .spawnWasm task], _) ↔ _
    constructor
    · intro found
      obtain ⟨other, member, scattered, rest⟩ := found
      rcases List.mem_append.mp member with old | new
      · exact ⟨other, old, scattered, rest⟩
      · rw [List.mem_singleton.mp new] at scattered
        cases scattered
    · intro found
      obtain ⟨other, member, rest⟩ := found
      exact ⟨other, List.mem_append_left _ member, rest⟩
  | @scattered ctx file func start stop sent jobId readable workers targets =>
    obtain ⟨f, rfl, small⟩ := readable
    rw [List.foldl_cons, follow_dispatched]
    exact exact_.scattered workers (scatter_pendingTasks s jobId _ sent)
      (safe.calls ctx f func start stop rfl small)

/-- In every run from start-up without a disconnect in which no call sends to a
worker that still owes the result of a scattered task and no such result arrives,
the ledger holds exactly the unanswered scattered tasks in every state reached. -/
theorem ledger_exact_of_safe (myNodeId : Int) (msgBuffer : Message)
    {last : Node × List Unanswered}
    {steps : List (Transition (Node × List Unanswered) Event Action)}
    (run : Run (withHistory Node.Step follow) (.boot myNodeId msgBuffer, []) steps last)
    (calm : ∀ t ∈ steps, ∀ slot ctx, t.event ≠ .read slot .failed ctx)
    (safe : ∀ t ∈ steps, LedgerSafe t.before.1 t.before.2 t.event) :
    ∀ t ∈ steps, LedgerExact t.after.1 t.after.2 := by
  have boot : LedgerExact (.boot myNodeId msgBuffer) [] := by
    intro worker msg
    constructor
    · intro held
      cases held
    · intro found
      obtain ⟨_, member, _⟩ := found
      cases member
  have states := run.guarded_invariant (fun p => LedgerExact p.1 p.2)
    (fun t => (∀ slot ctx, t.event ≠ .read slot .failed ctx) ∧
      LedgerSafe t.before.1 t.before.2 t.event)
    (by
      intro t valid exact_ cond
      rw [valid.history]
      exact ledgerExact_step valid.forget.effect cond.1 exact_ cond.2)
    boot (fun t member => ⟨calm t member, safe t member⟩)
  exact fun t member => (states.2 t member).2

/-- A node that owes nothing meets the condition. -/
theorem ledgerSafe_nil (s : Node) (event : Event) : LedgerSafe s [] event :=
  ⟨by simp, by simp⟩

/-- Node 2 answers a job. -/
def answerFor (jobId : UInt32) : Message := resultMessage .zeroed 2 .taskResult ⟨jobId, 7, 1⟩

theorem answers_answerFor (call : Call) (jobId : UInt32) (task : Dispatch)
    (worker : task.worker = 2)
    (header : TaskHeader.view task.msg.payload = ⟨.executeWasm, jobId⟩) :
    answers (answerFor jobId) (Dispatch.unanswered call task) = true := by
  have result : TaskResult.view (answerFor jobId).payload = ⟨jobId, 7, 1⟩ :=
    view_resultMessage _ _ _ _
  have sender : (answerFor jobId).senderId.toNat = 2 := by
    show (UInt16.ofInt 2).toNat = 2
    decide
  simp only [answers, Dispatch.unanswered, header, result, worker, sender, and_self, decide_true]

/-- Node 2 answers job 1 of a single call while it owes the scattered job 0. -/
theorem ledger_exact_scatter : ∃ last steps,
    Run (withHistory Node.Step follow) (.boot 1 .zeroed, []) steps last ∧
      (∃ task, last.2 = [Dispatch.unanswered .distributed task] ∧
        last.1.pendingTasks 2 = some task.msg) ∧
      ∀ t ∈ steps, LedgerExact t.after.1 t.after.2 := by
  obtain ⟨single, header, spawn⟩ := step_spawn (drawing 1) [102] readyTwo_winner readyTwo_target
  let spawned : Node := { readyTwo with clusterStatus := markedBusy readyTwo.clusterStatus 2 }
  have workers : spawned.findAllWorkers spawned.myNodeId = [2] := by
    show readyTwo.findAllWorkers 1 = [2]
    decide
  obtain ⟨fd, msg, _, _, sent⟩ := distributed_single .zeroed [102] 0 10 spawned 2 workers
  let scattered : Node := (spawned.recordJob 0 10).afterScatterSend ⟨2, fd, msg⟩
  have scatter : spawned.Step (.distributed .zeroed (some ⟨(0 : Nat), []⟩) [102] 0 10)
      [.recorded 0, .dispatched .distributed ⟨2, fd, msg⟩] scattered := ⟨trivial, sent⟩
  have receive := step_receive scattered (.peer 2) .refusing (answerFor 1) rfl
    (by decide : 0 < (readyTwo.sock (.peer 2)).val) (.inr rfl)
  have answered := answers_answerFor .spawnWasm 1 ⟨2, fd5, single⟩ rfl header
  let owed := Dispatch.unanswered .spawnWasm ⟨2, fd5, single⟩
  let held := Dispatch.unanswered .distributed ⟨2, fd, msg⟩
  have run := ((((Run.single (observed step_connectTwo follow [])).snoc
    (observed step_reportTwo follow [])).snoc (observed spawn follow [])).snoc
    (observed scatter follow [owed])).snoc (observed receive follow [owed, held])
  refine ⟨_, _, run, ⟨⟨2, fd, msg⟩, ?_, ?_⟩,
    ledger_exact_of_safe 1 .zeroed run (by simp [readWhole]) ?_⟩
  · exact List.eraseP_cons_of_pos answered
  · show Function.update readyTwo.pendingTasks ((2 : Nat) : Int) (some msg) 2 = some msg
    exact Function.update_self ..
  · simp only [List.forall_mem_append, List.forall_mem_singleton]
    refine ⟨⟨⟨⟨ledgerSafe_nil _ _, ledgerSafe_nil _ _⟩, ledgerSafe_nil _ _⟩, ?_, ?_⟩, ?_, ?_⟩
    · intro _ _ _ _ _ _ _ task member other
      cases List.mem_singleton.mp member
      cases other
    · intro _ _ _ _ _ event
      cases event
    · intro _ _ _ _ _ event
      cases event
    · intro slot piece nonempty fits ctx event _ _ _ task first
      cases event
      rw [messageRead_whole] at first
      cases first.symm.trans (List.find?_cons_of_pos answered)
      intro other
      cases other

/-- After the answer of node 2 its task is still in the ledger. -/
theorem ledger_keeps_answered : ¬ ∀ (myNodeId : Int) (msgBuffer : Message)
    (last : Node × List Unanswered) (steps : List (Transition (Node × List Unanswered) Event Action))
    (_ : Run (withHistory Node.Step follow) (.boot myNodeId msgBuffer, []) steps last)
    (_ : ∀ t ∈ steps, ∀ slot ctx, t.event ≠ .read slot .failed ctx),
    ∀ t ∈ steps, LedgerExact t.after.1 t.after.2 := by
  intro always
  obtain ⟨task, worker, header, scatter⟩ := step_scatter_two
  have receive := step_receive ((connectedTwo.recordJob 0 10).afterScatterSend task) (.peer 2)
    .refusing (answerFor 0) rfl (by decide : 0 < (connectedTwo.sock (.peer 2)).val) (.inr rfl)
  have run := ((Run.single (observed step_connectTwo follow [])).snoc
    (observed scatter follow _)).snoc (observed receive follow _)
  have exact_ : LedgerExact _ ([Dispatch.unanswered .distributed task].eraseP
      (answers (answerFor 0))) :=
    always 1 .zeroed _ _ run (by simp) _ List.mem_concat_self
  rw [List.eraseP_cons_of_pos (answers_answerFor .distributed 0 task worker header)] at exact_
  have held : ((connectedTwo.recordJob 0 10).afterScatterSend task).pendingTasks task.worker =
      some task.msg := Function.update_self ..
  obtain ⟨_, member, _⟩ := (exact_ task.worker task.msg).mp held
  cases member

end VelumOS.Guarantees.LedgerExactness
