import VelumOS.Guarantees.DeathDetection
import VelumOS.Guarantees.LedgerExactness

/-!
# Unanswered tasks when a worker dies

When the connection of a worker closes, `handle_sock` erases the worker's ledger
entry and sends nothing. `velum_spawn_wasm` makes no entry at all. A task therefore
outlives its connection only in the ledger slot of another id than the one that is
declared dead. `LossSafe` is this condition on the state before a step.
-/
namespace VelumOS.Guarantees.WorkerLoss
open VelumOS.Source VelumOS.Spec Base.Runs Base.KeyedStore ScatterCoverage DeathDetection

/-- The ledger holds the request of the task. -/
def Recorded (s : Node) (task : Unanswered) : Prop := ∃ key, s.pendingTasks key = some task.msg

/-- The connection the task was sent on is still open. -/
def InFlight (s : Node) (task : Unanswered) : Prop := ∃ fd, task.conn = some fd ∧ s.Open fd

/-- The step sends the request of the task again, on an open connection. -/
def Resent (t : Transition (Node × List Unanswered) Event Action) (task : Unanswered) : Prop :=
  ∃ fd, t.after.1.Open fd ∧ (.sent fd task.msg ∈ t.actions ∨
    ∃ call worker, .dispatched call ⟨worker, fd, task.msg⟩ ∈ t.actions)

/-- Every unanswered task is in the ledger or in flight to a connected worker. -/
def WorkHeld (s : Node) (tasks : List Unanswered) : Prop :=
  ∀ task ∈ tasks, Recorded s task ∨ InFlight s task

/-- If a worker is declared dead while another one is connected, its unanswered tasks
are sent again or in the ledger after the step. -/
def DeathHandled (t : Transition (Node × List Unanswered) Event Action) : Prop :=
  ∀ nodeId, .died nodeId ∈ t.actions →
    (∃ other ∈ t.after.1.findAllWorkers t.after.1.myNodeId, (other : Int) ≠ nodeId) →
    ∀ task ∈ t.after.2, (task.worker : Int) = nodeId → Recorded t.after.1 task ∨ Resent t task

/-- Another slot leads to a worker other than the node the slot is mapped to. -/
def OtherWorker (s : Node) (slot : Slot) : Prop :=
  ∃ other, other ≠ slot ∧ ∃ worker : Nat, s.Leads other worker ∧ 0 < worker ∧
    (worker : Int) ≠ s.myNodeId ∧ (worker : Int) ≠ s.socketToId (s.sock slot)

/-- No task is lost with a connection, and no ledger entry is overwritten that a task
without a connection needs. -/
structure LossSafe (s : Node) (tasks : List Unanswered) (event : Event) : Prop where
  closes : ∀ slot ctx, event = .read slot .failed ctx → slot.serviced = true →
    0 < (s.sock slot).val → ∀ task ∈ tasks,
    (∃ key, key ≠ s.socketToId (s.sock slot) ∧ s.pendingTasks key = some task.msg) ∨
      ((∃ fd, task.conn = some fd ∧ fd ≠ s.sock slot) ∧
        ((task.worker : Int) = s.socketToId (s.sock slot) → ¬ OtherWorker s slot))
  calls : ∀ ctx f func start stop, event = .distributed ctx (some f) func start stop →
    f.fsize ≤ 2000 → ∀ task ∈ tasks, task.conn = none →
    ∃ key, s.pendingTasks key = some task.msg ∧
      ∀ worker ∈ s.findAllWorkers s.myNodeId, (worker : Int) ≠ key

/-- The connections of unanswered tasks are open. -/
def ConnsOpen (s : Node) (tasks : List Unanswered) : Prop :=
  ∀ task ∈ tasks, ∀ fd, task.conn = some fd → s.Open fd

/-- With open connections, what is left to hold are the tasks without one. -/
theorem workHeld_iff (s : Node) (tasks : List Unanswered) (conns : ConnsOpen s tasks) :
    WorkHeld s tasks ↔ ∀ task ∈ tasks, task.conn = none → Recorded s task := by
  constructor
  · intro held task member lost
    rcases held task member with recorded | flight
    · exact recorded
    · obtain ⟨fd, conn, _⟩ := flight
      rw [lost] at conn
      cases conn
  · intro held task member
    cases conn : task.conn with
    | none => exact .inl (held task member conn)
    | some fd => exact .inr ⟨fd, conn, conns task member fd conn⟩

theorem ConnsOpen.mono {s after : Node} {tasks later : List Unanswered}
    (conns : ConnsOpen s tasks) (opened : ∀ fd, s.Open fd → after.Open fd)
    (fewer : ∀ task ∈ later, task ∈ tasks) : ConnsOpen after later :=
  fun task member fd conn => opened fd (conns task (fewer task member) fd conn)

/-- Tasks sent on targets of the lookup join the open ones. -/
theorem ConnsOpen.append {s after : Node} {tasks : List Unanswered} (conns : ConnsOpen s tasks)
    (opened : ∀ fd, s.Open fd → after.Open fd) (call : Call) (sent : List Dispatch)
    (targets : ∀ task ∈ sent, s.findTarget task.worker = some task.fd) :
    ConnsOpen after (tasks ++ sent.map (Dispatch.unanswered call)) := by
  intro task member fd conn
  apply opened
  rcases List.mem_append.mp member with old | new
  · exact conns task old fd conn
  · obtain ⟨dispatch, inside, rfl⟩ := List.mem_map.mp new
    obtain ⟨slot, leads, same⟩ := s.findTarget_leads _ _ (targets dispatch inside)
    cases conn
    exact ⟨same ▸ leads.1, slot, same⟩

/-- A refused connection is not the connection of any task. -/
theorem map_afterClose_refused (s : Node) (tasks : List Unanswered) (ns : Sock)
    (conns : ConnsOpen s tasks) (fresh : s.Fresh ns) :
    tasks.map (Unanswered.afterClose ns) = tasks := by
  have same : ∀ task ∈ tasks, task.afterClose ns = id task := by
    intro task member
    rw [Unanswered.afterClose, if_neg, id]
    intro conn
    exact ne_of_fresh fresh (conns task member ns conn) rfl
  rw [List.map_congr_left same, List.map_id]

/-- The connections of the unanswered tasks stay open over every step. -/
theorem connsOpen_step {s after : Node} {tasks : List Unanswered} {event : Event}
    {actions : List Action} (effect : Effect s event actions after) (conns : ConnsOpen s tasks) :
    ConnsOpen after (actions.foldl follow tasks) := by
  have opened := open_of_calm effect
  cases effect with
  | quiet sends =>
    rw [follow_sends tasks _ sends]
    exact conns
  | connected => exact conns.mono (opened (by simp)) fun _ member => member
  | admitted => exact conns.mono (opened (by simp)) fun _ member => member
  | failedAccept => exact conns.mono (opened (by simp)) fun _ member => member
  | @refused ns fresh =>
    show ConnsOpen s (tasks.map (Unanswered.afterClose ns))
    rw [map_afterClose_refused s tasks ns conns fresh]
    exact conns
  | @closed slot ctx live serviced =>
    rw [follow_closeConnection]
    intro task member fd conn
    obtain ⟨old, inside, rfl⟩ := List.mem_map.mp member
    obtain ⟨before, different⟩ := (afterClose_conn _ fd old).mp conn
    exact open_of_other slot (conns old inside fd before) different
  | @received slot piece nonempty fits ctx sends status live serviced onlySends =>
    rw [List.foldl_cons, follow_sends _ _ onlySends, follow]
    split
    · exact conns.mono (opened (by simp)) fun _ member => List.mem_of_mem_eraseP member
    · exact conns.mono (opened (by simp)) fun _ member => member
  | spawned task target =>
    apply conns.append (opened (by simp)) .spawnWasm [task]
    intro other member
    rw [List.mem_singleton.mp member]
    exact target
  | @scattered ctx file func start stop sent jobId readable workers targets =>
    rw [List.foldl_cons, follow_dispatched]
    exact conns.append (opened (by simp)) .distributed sent targets

/-- An entry under another id outlives the close. -/
theorem recorded_closeConnection (s : Node) (slot : Slot) (task : Unanswered)
    (entry : ∃ key, key ≠ s.socketToId (s.sock slot) ∧ s.pendingTasks key = some task.msg) :
    Recorded (s.closeConnection slot).1 task := by
  obtain ⟨key, other, held⟩ := entry
  refine ⟨key, ?_⟩
  rw [closeConnection_pendingTasks]
  split
  · exact held
  · rwa [Function.update_of_ne other]

/-- An entry that no scattered task overwrites outlives the call. -/
theorem recorded_scattered (s : Node) (jobId : UInt32) (range : Int32) (sent : List Dispatch)
    (task : Unanswered) (workers : (sent.map Dispatch.worker).Sublist (s.findAllWorkers s.myNodeId))
    (entry : ∃ key, s.pendingTasks key = some task.msg ∧
      ∀ worker ∈ s.findAllWorkers s.myNodeId, (worker : Int) ≠ key) :
    Recorded (sent.foldl Node.afterScatterSend (s.recordJob jobId range)) task := by
  obtain ⟨key, held, unlisted⟩ := entry
  refine ⟨key, ?_⟩
  rw [scatter_pendingTasks, storeAll_of_absent]
  · exact held
  · intro stored
    obtain ⟨pair, inside, rfl⟩ := List.mem_map.mp stored
    obtain ⟨other, sentTo, rfl⟩ := List.mem_map.mp inside
    exact unlisted _ (workers.subset (List.mem_map_of_mem sentTo)) rfl

/-- One safe step leaves no task without a connection and without an entry. -/
theorem recorded_step {s after : Node} {tasks : List Unanswered} {event : Event}
    {actions : List Action} (effect : Effect s event actions after) (conns : ConnsOpen s tasks)
    (held : ∀ task ∈ tasks, task.conn = none → Recorded s task)
    (safe : LossSafe s tasks event) :
    ∀ task ∈ actions.foldl follow tasks, task.conn = none → Recorded after task := by
  cases effect with
  | quiet sends =>
    rw [follow_sends tasks _ sends]
    exact held
  | connected => exact held
  | admitted => exact held
  | failedAccept => exact held
  | @refused ns fresh =>
    show ∀ task ∈ tasks.map (Unanswered.afterClose ns), _
    rw [map_afterClose_refused s tasks ns conns fresh]
    exact held
  | @closed slot ctx live serviced =>
    rw [follow_closeConnection]
    intro task member lost
    obtain ⟨old, inside, rfl⟩ := List.mem_map.mp member
    rcases safe.closes slot ctx rfl serviced live old inside with entry | ⟨elsewhere, _⟩
    · have recorded := recorded_closeConnection s slot old entry
      simpa only [Recorded, afterClose_msg] using recorded
    · obtain ⟨fd, conn, different⟩ := elsewhere
      rw [(afterClose_conn _ fd old).mpr ⟨conn, different⟩] at lost
      cases lost
  | @received slot piece nonempty fits ctx sends status live serviced onlySends =>
    rw [List.foldl_cons, follow_sends _ _ onlySends, follow]
    split
    · exact fun task member => held task (List.mem_of_mem_eraseP member)
    · exact held
  | spawned task target =>
    intro other member lost
    rcases List.mem_append.mp member with old | new
    · exact held other old lost
    · rw [List.mem_singleton.mp new] at lost
      cases lost
  | @scattered ctx file func start stop sent jobId readable workers targets =>
    obtain ⟨f, rfl, small⟩ := readable
    rw [List.foldl_cons, follow_dispatched]
    intro task member lost
    rcases List.mem_append.mp member with old | new
    · exact recorded_scattered s jobId _ sent task workers
        (safe.calls ctx f func start stop rfl small task old lost)
    · obtain ⟨other, _, rfl⟩ := List.mem_map.mp new
      cases lost

/-- A safe close that declares a worker dead leaves its tasks in the ledger if another
worker is connected. -/
theorem deathHandled_of_safe (t : Transition (Node × List Unanswered) Event Action)
    (valid : t.Valid (withHistory Node.Step follow))
    (safe : LossSafe t.before.1 t.before.2 t.event) : DeathHandled t := by
  intro nodeId died another task member worker
  obtain ⟨slot, ctx, event, serviced, live, after, actions, mapped, _⟩ :=
    declares_cases t.forget nodeId valid.forget.effect (.inl died)
  replace after : t.after.1 = (t.before.1.closeConnection slot).1 := after
  replace actions : t.actions = (t.before.1.closeConnection slot).2 := actions
  replace mapped : nodeId = t.before.1.socketToId (t.before.1.sock slot) := mapped
  rw [valid.history, actions, follow_closeConnection] at member
  obtain ⟨old, inside, rfl⟩ := List.mem_map.mp member
  rw [afterClose_worker] at worker
  rcases safe.closes slot ctx event serviced live old inside with entry | ⟨_, alone⟩
  · have recorded := recorded_closeConnection t.before.1 slot old entry
    rw [← after] at recorded
    exact .inl (by simpa only [Recorded, afterClose_msg] using recorded)
  · obtain ⟨other, listed, different⟩ := another
    rw [after, closeConnection_myNodeId, Node.mem_findAllWorkers] at listed
    obtain ⟨positive, foreign, next, leads⟩ := listed
    obtain ⟨elsewhere, leads⟩ := (leads_closeConnection _ _ _ _).mp leads
    exact absurd ⟨next, elsewhere, other, leads, positive, foreign, mapped ▸ different⟩
      (alone (worker.trans mapped))

/-- In every run from start-up whose closes lose no unanswered task and whose calls
overwrite no entry that one needs, a declared death leaves the worker's tasks in
the ledger, and in every state reached each unanswered task is in the ledger or in
flight on an open connection. -/
theorem work_held_of_safe (myNodeId : Int) (msgBuffer : Message) {last : Node × List Unanswered}
    {steps : List (Transition (Node × List Unanswered) Event Action)}
    (run : Run (withHistory Node.Step follow) (.boot myNodeId msgBuffer, []) steps last)
    (safe : ∀ t ∈ steps, LossSafe t.before.1 t.before.2 t.event) :
    ∀ t ∈ steps, DeathHandled t ∧ WorkHeld t.after.1 t.after.2 := by
  have states := run.guarded_invariant
    (fun p => ConnsOpen p.1 p.2 ∧ ∀ task ∈ p.2, task.conn = none → Recorded p.1 task)
    (fun t => LossSafe t.before.1 t.before.2 t.event)
    (by
      intro t valid inv cond
      rw [valid.history]
      exact ⟨connsOpen_step valid.forget.effect inv.1,
        recorded_step valid.forget.effect inv.1 inv.2 cond⟩)
    ⟨by simp [ConnsOpen], by simp⟩ safe
  intro t member
  obtain ⟨_, conns, held⟩ := states.2 t member
  exact ⟨deathHandled_of_safe t (run.valid t member) (safe t member),
    (workHeld_iff t.after.1 t.after.2 conns).mpr held⟩

/-- A node that owes nothing meets the condition. -/
theorem lossSafe_nil (s : Node) (event : Event) : LossSafe s [] event :=
  ⟨by simp, by simp⟩

/-- A job is scattered to node 2; then node 3 is connected. -/
def thenThree (task : Dispatch) : Node :=
  afterConnect ((connectedTwo.recordJob 0 10).afterScatterSend task) 3 fd6

theorem step_thenThree (task : Dispatch) :
    ((connectedTwo.recordJob 0 10).afterScatterSend task).Step
      (.beacon 12 ⟨0xCAFEBABE, (3 : Fin 16).val, 8003⟩ fd6)
      [.connected (3 : Fin 16).val fd6] (thenThree task) := by
  refine step_connect _ 3 8003 fd6 ?_ ?_ (by decide) fun slot => ?_
  · show ((3 : Fin 16).val : Int) ≠ 1
    decide
  · rfl
  · have same := scatter_sameTables connectedTwo 0 10 [task]
    rw [show ((connectedTwo.recordJob 0 10).afterScatterSend task).sock slot =
      connectedTwo.sock slot from same.sock slot, connectedTwo_sock]
    split <;> decide

theorem thenThree_mapped (task : Dispatch) :
    (thenThree task).socketToId ((thenThree task).sock (.peer 2)) = 2 := rfl

/-- While node 2 owes its task, the connection to node 3 may close: the task is in the
ledger under the id of node 2, and on another connection. -/
theorem lossSafe_closeThree (task : Dispatch) (worker : task.worker = 2) :
    LossSafe (thenThree task) [Dispatch.unanswered .distributed task]
      (.read (.peer 3) .failed .refusing) := by
  refine ⟨fun slot ctx event _ _ other member => .inl ?_, nofun⟩
  cases event
  rw [List.mem_singleton.mp member]
  refine ⟨2, by show (2 : Int) ≠ 3; decide, ?_⟩
  show Function.update (fun _ => none) (task.worker : Int) (some task.msg) 2 = some task.msg
  rw [worker]
  exact Function.update_self ..

/-- After node 2 died the ledger is empty. -/
theorem thenThree_ledger (task : Dispatch) (worker : task.worker = 2) (key : Int) :
    ((thenThree task).closeConnection (.peer 2)).1.pendingTasks key = none := by
  rw [closeConnection_pendingTasks, thenThree_mapped, if_neg (by decide)]
  by_cases same : key = 2
  · rw [same, Function.update_self]
  · rw [Function.update_of_ne same]
    show Function.update (fun _ => none) (task.worker : Int) (some task.msg) key = none
    rw [worker]
    exact Function.update_of_ne same ..

/-- Node 3 dies while the task of node 2 is in flight. -/
theorem work_held_in_flight : ∃ last steps,
    Run (withHistory Node.Step follow) (.boot 1 .zeroed, []) steps last ∧
      (∃ t ∈ steps, .died 3 ∈ t.actions) ∧ (∃ task ∈ last.2, task.worker = 2) ∧
      ∀ t ∈ steps, DeathHandled t ∧ WorkHeld t.after.1 t.after.2 := by
  obtain ⟨task, worker, _, scatter⟩ := step_scatter_two
  let owed := Dispatch.unanswered .distributed task
  have close := step_close (thenThree task) (.peer 3) .refusing rfl (by decide : 0 < fd6.val)
  have run := (((Run.single (observed step_connectTwo follow [])).snoc
    (observed scatter follow [])).snoc (observed (step_thenThree task) follow [owed])).snoc
    (observed close follow [owed])
  have died := died_closeConnection (thenThree task) (.peer 3) 3 rfl (by decide)
  refine ⟨_, _, run, ⟨_, List.mem_concat_self, died⟩, ?_, work_held_of_safe 1 .zeroed run ?_⟩
  · refine ⟨owed.afterClose ((thenThree task).sock (.peer 3)), ?_, ?_⟩
    · rw [follow_closeConnection]
      exact List.mem_map_of_mem List.mem_cons_self
    · rw [afterClose_worker]
      exact worker
  · simp only [List.forall_mem_append, List.forall_mem_singleton]
    exact ⟨⟨⟨lossSafe_nil _ _, lossSafe_nil _ _⟩, nofun, nofun⟩, lossSafe_closeThree task worker⟩

/-- Node 2 dies while node 3 is connected: its task is in the ledger no longer, and
was not sent again. -/
theorem work_lost_with_worker : ¬ ∀ (myNodeId : Int) (msgBuffer : Message)
    (last : Node × List Unanswered) (steps : List (Transition (Node × List Unanswered) Event Action))
    (_ : Run (withHistory Node.Step follow) (.boot myNodeId msgBuffer, []) steps last),
    ∀ t ∈ steps, DeathHandled t ∧ WorkHeld t.after.1 t.after.2 := by
  intro always
  obtain ⟨task, worker, _, scatter⟩ := step_scatter_two
  have live : 0 < ((thenThree task).sock (.peer 2)).val := by
    show 0 < (connectedTwo.sock (.peer 2)).val
    decide
  have close := step_close (thenThree task) (.peer 2) .refusing rfl live
  have run := (((Run.single (observed step_connectTwo follow [])).snoc
    (observed scatter follow _)).snoc (observed (step_thenThree task) follow _)).snoc
    (observed close follow _)
  have handled := (always 1 .zeroed _ _ run _ List.mem_concat_self).1
  have died := died_closeConnection (thenThree task) (.peer 2) 2 (thenThree_mapped task) (by decide)
  have another : 3 ∈ ((thenThree task).closeConnection (.peer 2)).1.findAllWorkers
      ((thenThree task).closeConnection (.peer 2)).1.myNodeId := by
    rw [closeConnection_myNodeId, Node.mem_findAllWorkers]
    refine ⟨by decide, ?_, .peer 3, (leads_closeConnection _ _ _ _).mpr ⟨by decide, ?_⟩⟩
    · show ((3 : Nat) : Int) ≠ 1
      decide
    · exact ⟨(by decide : (0 : Int) < 6), rfl⟩
  have member : (Dispatch.unanswered .distributed task).afterClose ((thenThree task).sock (.peer 2)) ∈
      ((thenThree task).closeConnection (.peer 2)).2.foldl follow
        [Dispatch.unanswered .distributed task] := by
    rw [follow_closeConnection]
    exact List.mem_map_of_mem List.mem_cons_self
  rcases handled 2 died ⟨3, another, by decide⟩ _ member
    (by rw [afterClose_worker]; exact congrArg _ worker) with recorded | resent
  · obtain ⟨key, held⟩ := recorded
    cases (thenThree_ledger task worker key).symm.trans held
  · obtain ⟨fd, _, sends⟩ := resent
    rw [show (_ : Transition _ _ _).actions = ((thenThree task).closeConnection (.peer 2)).2 from rfl,
      closeConnection_actions, thenThree_mapped] at sends
    simp at sends

end VelumOS.Guarantees.WorkerLoss
