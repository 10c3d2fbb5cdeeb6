import VelumOS.Spec.Scheduling
import VelumOS.Guarantees.ScatterCoverage
import VelumOS.Base.Journal
import VelumOS.Base.Refinement

/-!
# The tables as functions of what happened

`cluster_status` and `pending_tasks` are written in many places: a report, a dispatch
of either call, a disconnect. In every run an entry is what the last report, disconnect
or scattered request for its worker left there, and the dispatches since.
-/
namespace VelumOS.Guarantees.TableHistories
open VelumOS.Source VelumOS.Spec Base.Runs Base.Refinement Base.Journal Base.KeyedStore
open ScatterCoverage

/-- The action sends a request to the worker. -/
def dispatchesTo (worker : Nat) : Action → Bool
  | .dispatched _ task => task.worker = worker
  | _ => false

/-- `++task_queue_len`. -/
def enqueue (status : NodeStatus) : NodeStatus :=
  { status with taskQueueLen := status.taskQueueLen + 1 }

/-- How actions concern the status entry of a worker: its own reports and its death
overwrite it, a request sent to it adds one to the queue. -/
def statusEffects (worker : Nat) : Effects Action NodeStatus where
  writes
    | .received _ _ msg =>
      if msg.type = .statusReport ∧ msg.senderId.toNat = worker then some (.view msg.payload)
      else none
    | .died nodeId => if nodeId = worker then some .zero else none
    | _ => none
  bumps := dispatchesTo worker
  bump := enqueue

/-- How actions concern the ledger slot of a worker: a scattered request fills it and the
death of the worker empties it. -/
def ledgerEffects (worker : Int) : Effects Action (Option Message) where
  writes
    | .dispatched .distributed task => if (task.worker : Int) = worker then some (some task.msg) else none
    | .died nodeId => if nodeId = worker then some none else none
    | _ => none
  bumps _ := false
  bump := id

/-! ## The status table -/

/-- A message stores the report it carries in the entry of its sender, and nothing else. -/
theorem handleMessage_status {ctx : TaskContext} {myId : Int} {status after : ClusterStatus}
    {msg : Message} {sent : List Message}
    (success : handleMessage ctx myId status msg = .ok (after, sent)) (w : Fin 17) :
    after w = if msg.type = .statusReport ∧ msg.senderId.toNat = w.val then .view msg.payload
      else status w := by
  by_cases report : msg.type = .statusReport
  · rw [handleMessage_report ctx myId status report] at success
    cases success
    simp only [reported, report, true_and]
  · rw [if_neg fun both => report both.1]
    unfold handleMessage at success
    split at success
    · next same => exact absurd same report
    · obtain ⟨_, _, success⟩ := bind_success success
      cases success
      rfl
    · cases success
      rfl

theorem forwardMessage_status {ctx : ReadContext} {s after : Node} {fd : Sock} {msg : Message}
    {actions : List Action} (success : s.forwardMessage ctx fd msg = .ok (after, actions))
    (w : Fin 17) : after.clusterStatus w =
      if msg.type = .statusReport ∧ msg.senderId.toNat = w.val then .view msg.payload
      else s.clusterStatus w := by
  obtain ⟨⟨status, replies⟩, handled, success⟩ := bind_success success
  cases success
  exact handleMessage_status handled w

/-- Handling a message stores the report it carries, and nothing else. -/
theorem processMessage_status {ctx : ReadContext} {s after : Node} {fd : Sock} {msg : Message}
    {actions : List Action} (success : s.processMessage ctx fd msg = .ok (after, actions))
    (w : Fin 17) : after.clusterStatus w =
      if msg.type = .statusReport ∧ msg.senderId.toNat = w.val then .view msg.payload
      else s.clusterStatus w := by
  unfold Node.processMessage at success
  split at success
  · next type =>
    split at success
    · obtain ⟨_, _, success⟩ := bind_success success
      cases success
      rw [if_neg (by simp [type])]
    · exact forwardMessage_status success w
  · next type =>
    cases success
    rw [if_neg (by simp [type])]
  · next type =>
    cases success
    rw [if_neg (by simp [type])]
  · exact forwardMessage_status success w

/-- Sends do not concern a status entry. -/
theorem status_sends {actions : List Action} (sends : OnlySends actions) (worker : Nat)
    (status : NodeStatus) : actions.foldl (statusEffects worker).apply status = status :=
  foldl_sends _ (fun _ _ _ => rfl) actions sends status

/-- The marks of a scatter call. -/
theorem status_dispatched (w : Fin 17) (nonzero : w ≠ 0) (call : Call) (tasks : List Dispatch)
    (status : ClusterStatus) :
    markAll status (tasks.map Dispatch.worker) w =
      (tasks.map (Action.dispatched call)).foldl (statusEffects w.val).apply (status w) := by
  induction tasks generalizing status with
  | nil => rfl
  | cons task rest ih =>
    rw [List.map_cons, List.map_cons, List.foldl_cons]
    rw [← show markedBusy status task.worker w =
      (statusEffects w.val).apply (status w) (.dispatched call task) from ?_]
    · exact ih (markedBusy status task.worker)
    · rw [markedBusy_apply]
      have positive : w.val ≠ 0 := fun zero => nonzero (Fin.ext zero)
      simp only [positive, ne_eq, not_false_eq_true, true_and, Nat.cast_inj]
      simp only [Effects.apply, statusEffects, dispatchesTo, enqueue, decide_eq_true_eq]

/-- A step changes the status entry of a worker as its actions tell. -/
theorem status_step {s after : Node} {event : Event} {actions : List Action}
    (step : s.Step event actions after) (w : Fin 17) (nonzero : w ≠ 0) :
    after.clusterStatus w = actions.foldl (statusEffects w.val).apply (s.clusterStatus w) := by
  have effect := step.effect
  cases effect with
  | quiet sends => rw [status_sends sends]
  | connected => rfl
  | admitted => rfl
  | failedAccept => rfl
  | refused => rfl
  | @closed slot ctx live serviced =>
    rw [closeConnection_clusterStatus, closeConnection_actions]
    have positive : w.val ≠ 0 := fun zero => nonzero (Fin.ext zero)
    split
    · rfl
    · rw [withoutNode_apply]
      simp only [positive, ne_eq, not_false_eq_true, true_and, List.foldl_cons, List.foldl_nil,
        Effects.apply, statusEffects, dispatchesTo]
      split <;> rfl
  | @received slot piece nonempty fits ctx sends status live serviced onlySends =>
    have success := step.2
    simp only [Node.step, serviced, if_true] at success
    obtain ⟨sent, same, processed⟩ := handleSock_data ctx s _ slot piece nonempty fits _ live success
    have entry := processMessage_status processed w
    rw [List.foldl_cons, status_sends onlySends]
    refine entry.trans ?_
    simp only [Effects.apply, statusEffects, dispatchesTo]
    split <;> rfl
  | spawned task => exact status_dispatched w nonzero .spawnWasm [task] s.clusterStatus
  | scattered tasks jobId =>
    rw [scatter_clusterStatus, List.foldl_cons]
    exact status_dispatched w nonzero .distributed tasks s.clusterStatus

/-- Entries are looked up at a run's end as a fold over its actions. -/
theorem status_fold {start last : Node} {steps : List (Transition Node Event Action)}
    (run : Run Node.Step start steps last) (w : Fin 17) (nonzero : w ≠ 0) :
    last.clusterStatus w =
      (actionsOf steps).foldl (statusEffects w.val).apply (start.clusterStatus w) := by
  induction run with
  | nil => rfl
  | snoc earlier step ih =>
    rw [actionsOf_append, actionsOf_single, List.foldl_append, ← ih]
    exact status_step step w nonzero

/-- Counting tasks in the octet of the queue. -/
theorem enqueue_iterate (n : Nat) (status : NodeStatus) :
    enqueue^[n] status = { status with taskQueueLen := status.taskQueueLen + UInt8.ofNat n } := by
  induction n generalizing status with
  | zero => simp
  | succ n ih =>
    rw [Function.iterate_succ_apply, ih]
    simp only [enqueue, UInt8.ofNat_add, NodeStatus.mk.injEq, true_and]
    rw [add_assoc, add_comm (1 : UInt8)]
    rfl

/-- In every run from start-up, the status entry of a worker is its last report, or zero
after its last declared death if that came later, or zero if there was neither, with one
task more in the queue for each request sent to it since, counted modulo 256. -/
theorem status_history (myNodeId : Int) (msgBuffer : Message) (last : Node)
    (steps : List (Transition Node Event Action))
    (run : Run Node.Step (.boot myNodeId msgBuffer) steps last) (w : Fin 17) (nonzero : w ≠ 0) :
    ∃ (base : NodeStatus) (since : List Action),
      ((base = .zero ∧ since = actionsOf steps) ∨
        ∃ front a, actionsOf steps = front ++ a :: since ∧
          ((a = .died w.val ∧ base = .zero) ∨ ∃ slot fd msg, a = .received slot fd msg ∧
            msg.type = .statusReport ∧ msg.senderId.toNat = w.val ∧ base = .view msg.payload)) ∧
      (∀ a ∈ since, a ≠ .died w.val ∧ ∀ slot fd msg, a = .received slot fd msg →
        ¬ (msg.type = .statusReport ∧ msg.senderId.toNat = w.val)) ∧
      last.clusterStatus w = { base with
        taskQueueLen := base.taskQueueLen + UInt8.ofNat (since.countP (dispatchesTo w.val)) } := by
  have silent (since : List Action) (untouched : (statusEffects w.val).Untouched since) :
      ∀ a ∈ since, a ≠ .died w.val ∧ ∀ slot fd msg, a = .received slot fd msg →
        ¬ (msg.type = .statusReport ∧ msg.senderId.toNat = w.val) := by
    intro a member
    have unwritten := untouched a member
    constructor
    · rintro rfl
      simp [statusEffects] at unwritten
    · rintro slot fd msg rfl reports
      simp [statusEffects, reports] at unwritten
  have entry := status_fold run w nonzero
  rcases (statusEffects w.val).untouched_or_written (actionsOf steps) with
    untouched | ⟨front, a, written, back, split_, wrote, untouched⟩
  · refine ⟨.zero, actionsOf steps, .inl ⟨rfl, rfl⟩, silent _ untouched, ?_⟩
    rw [entry, Effects.foldl_of_untouched _ untouched]
    exact enqueue_iterate _ _
  · refine ⟨written, back, .inr ⟨front, a, split_, ?_⟩, silent _ untouched, ?_⟩
    · cases a with
      | died nodeId =>
        simp only [statusEffects, Option.ite_none_right_eq_some, Option.some.injEq] at wrote
        exact .inl ⟨by rw [wrote.1], wrote.2.symm⟩
      | received slot fd msg =>
        simp only [statusEffects, Option.ite_none_right_eq_some, Option.some.injEq] at wrote
        exact .inr ⟨slot, fd, msg, rfl, wrote.1.1, wrote.1.2, wrote.2.symm⟩
      | _ => cases wrote
    · rw [entry, split_, Effects.foldl_of_written _ wrote untouched]
      exact enqueue_iterate _ _

/-- Node 2 reports and is sent one request: its entry is the report and one task. -/
theorem status_history_scatter : ∃ last steps msg, Run Node.Step (.boot 1 .zeroed) steps last ∧
    actionsOf steps = [.connected 2 fd5, .received (.peer 2) fd5 reportTwo,
      .dispatched .spawnWasm ⟨2, fd5, msg⟩] ∧
    ∃ (base : NodeStatus) (since : List Action),
      base = .view reportTwo.payload ∧ since.countP (dispatchesTo 2) = 1 ∧
      last.clusterStatus 2 = { base with
        taskQueueLen := base.taskQueueLen + UInt8.ofNat (since.countP (dispatchesTo 2)) } := by
  obtain ⟨msg, _, spawn⟩ := step_spawn .zeroed [102] readyTwo_winner readyTwo_target
  have run := ((Run.single step_connectTwo).snoc step_reportTwo).snoc spawn
  have reports : reportTwo.type = .statusReport ∧ reportTwo.senderId.toNat = 2 := ⟨rfl, by decide⟩
  obtain ⟨base, since, written, silent, entry⟩ := status_history 1 .zeroed _ _ run 2 (by decide)
  suffices found : base = .view reportTwo.payload ∧
      since = [.dispatched .spawnWasm ⟨2, fd5, msg⟩] by
    obtain ⟨rfl, rfl⟩ := found
    exact ⟨_, _, msg, run, rfl, _, _, rfl, by simp [dispatchesTo], entry⟩
  rcases written with ⟨_, rfl⟩ | ⟨front, a, split_, last⟩
  · exact absurd reports ((silent (.received (.peer 2) fd5 reportTwo)
      (List.mem_cons_of_mem _ List.mem_cons_self)).2 _ _ _ rfl)
  · change [.connected 2 fd5, .received (.peer 2) fd5 reportTwo,
      .dispatched .spawnWasm ⟨2, fd5, msg⟩] = front ++ a :: since at split_
    match front, split_ with
    | [], split_ =>
      cases split_
      rcases last with ⟨same, _⟩ | ⟨_, _, _, same, _⟩ <;> cases same
    | [_], split_ =>
      cases split_
      rcases last with ⟨same, _⟩ | ⟨_, _, _, same, _, _, rfl⟩
      · cases same
      · cases same
        exact ⟨rfl, rfl⟩
    | [_, _], split_ =>
      cases split_
      rcases last with ⟨same, _⟩ | ⟨_, _, _, same, _⟩ <;> cases same
    | _ :: _ :: _ :: rest, split_ => simp at split_

/-! ## The ledger -/

/-- Sends do not concern a ledger slot. -/
theorem ledger_sends {actions : List Action} (sends : OnlySends actions) (worker : Int)
    (slot : Option Message) : actions.foldl (ledgerEffects worker).apply slot = slot :=
  foldl_sends _ (fun _ _ _ => rfl) actions sends slot

/-- The requests of a scatter call go into the ledger one by one. -/
theorem ledger_dispatched (worker : Int) (tasks : List Dispatch) (ledger : Int → Option Message) :
    storeAll ledger (ledgerEntries tasks) worker =
      (tasks.map (Action.dispatched .distributed)).foldl (ledgerEffects worker).apply
        (ledger worker) := by
  induction tasks generalizing ledger with
  | nil => rfl
  | cons task rest ih =>
    rw [List.map_cons, List.foldl_cons]
    have stored : Function.update ledger (task.worker : Int) (some task.msg) worker =
        (ledgerEffects worker).apply (ledger worker) (.dispatched .distributed task) := by
      rw [Function.update_apply]
      by_cases same : (task.worker : Int) = worker
      · simp [Effects.apply, ledgerEffects, same]
      · simp [Effects.apply, ledgerEffects, same, Ne.symm same]
    rw [← stored]
    exact ih _

/-- A step changes the ledger slot of a worker as its actions tell. -/
theorem ledger_step {s after : Node} {event : Event} {actions : List Action}
    (step : s.Step event actions after) (worker : Int) :
    after.pendingTasks worker = actions.foldl (ledgerEffects worker).apply (s.pendingTasks worker) := by
  have effect := step.effect
  cases effect with
  | quiet sends => rw [ledger_sends sends]
  | connected => rfl
  | admitted => rfl
  | failedAccept => rfl
  | refused => rfl
  | @closed slot =>
    rw [closeConnection_pendingTasks, closeConnection_actions]
    split
    · rfl
    · rw [Function.update_apply]
      by_cases same : s.socketToId (s.sock slot) = worker
      · simp [Effects.apply, ledgerEffects, same]
      · simp [Effects.apply, ledgerEffects, same, Ne.symm same]
  | received _ _ _ onlySends =>
    rw [List.foldl_cons, ledger_sends onlySends]
    rfl
  | spawned => rfl
  | scattered tasks jobId =>
    rw [scatter_pendingTasks, List.foldl_cons]
    exact ledger_dispatched worker tasks s.pendingTasks

theorem ledger_fold {start last : Node} {steps : List (Transition Node Event Action)}
    (run : Run Node.Step start steps last) (worker : Int) :
    last.pendingTasks worker =
      (actionsOf steps).foldl (ledgerEffects worker).apply (start.pendingTasks worker) := by
  induction run with
  | nil => rfl
  | snoc earlier step ih =>
    rw [actionsOf_append, actionsOf_single, List.foldl_append, ← ih]
    exact ledger_step step worker

/-- The ledger slot is never changed in place. -/
theorem ledger_unbumped (worker : Int) (actions : List Action) (slot : Option Message) :
    (ledgerEffects worker).bump^[actions.countP (ledgerEffects worker).bumps] slot = slot := by
  simp [ledgerEffects]

theorem ledger_untouched_iff (worker : Int) (since : List Action) :
    (ledgerEffects worker).Untouched since ↔ ∀ a ∈ since, a ≠ .died worker ∧
      ∀ task, a = .dispatched .distributed task → (task.worker : Int) ≠ worker := by
  apply forall₂_congr
  intro a _
  cases a with
  | dispatched call task => cases call <;> simp [ledgerEffects]
  | died nodeId => simp [ledgerEffects]
  | _ => simp [ledgerEffects]

/-- In every run from start-up, with any disconnects, the ledger holds a request for a worker
exactly if it is the last one scattered to that worker and the worker was not declared
dead since. -/
theorem ledger_history (myNodeId : Int) (msgBuffer : Message) (last : Node)
    (steps : List (Transition Node Event Action))
    (run : Run Node.Step (.boot myNodeId msgBuffer) steps last) (worker : Int) (msg : Message) :
    last.pendingTasks worker = some msg ↔ ∃ front task since,
      actionsOf steps = front ++ .dispatched .distributed task :: since ∧
      (task.worker : Int) = worker ∧ task.msg = msg ∧
      ∀ a ∈ since, a ≠ .died worker ∧
        ∀ task, a = .dispatched .distributed task → (task.worker : Int) ≠ worker := by
  have slot := ledger_fold run worker
  constructor
  · intro held
    rw [slot] at held
    rcases (ledgerEffects worker).untouched_or_written (actionsOf steps) with
      untouched | ⟨front, a, written, back, split_, wrote, untouched⟩
    · rw [Effects.foldl_of_untouched _ untouched, ledger_unbumped] at held
      cases held
    · rw [split_, Effects.foldl_of_written _ wrote untouched, ledger_unbumped] at held
      have since := (ledger_untouched_iff worker back).mp untouched
      cases a with
      | dispatched call task =>
        cases call with
        | spawnWasm => cases wrote
        | distributed =>
          simp only [ledgerEffects, Option.ite_none_right_eq_some, Option.some.injEq] at wrote
          refine ⟨front, task, back, split_, wrote.1, ?_, since⟩
          exact Option.some.inj (wrote.2.trans held)
      | died nodeId =>
        simp only [ledgerEffects, Option.ite_none_right_eq_some, Option.some.injEq] at wrote
        cases wrote.2.trans held
      | _ => cases wrote
  · rintro ⟨front, task, since, split_, named, rfl, silent⟩
    have wrote : (ledgerEffects worker).writes (.dispatched .distributed task) =
        some (some task.msg) := by
      simp [ledgerEffects, named]
    rw [slot, split_, Effects.foldl_of_written _ wrote ((ledger_untouched_iff worker since).mpr silent),
      ledger_unbumped]

/-- The request scattered to node 2 is held for it. -/
theorem ledger_history_scatter : ∃ last steps msg, Run Node.Step (.boot 1 .zeroed) steps last ∧
    last.pendingTasks 2 = some msg := by
  obtain ⟨task, worker, _, scatter⟩ := step_scatter_two
  have run := (Run.single step_connectTwo).snoc scatter
  refine ⟨_, _, task.msg, run, (ledger_history 1 .zeroed _ _ run 2 task.msg).mpr ?_⟩
  refine ⟨[.connected 2 fd5, .recorded 0], task, [], rfl, by rw [worker]; rfl, rfl, ?_⟩
  exact fun _ member => absurd member List.not_mem_nil

end VelumOS.Guarantees.TableHistories
