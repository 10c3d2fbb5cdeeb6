import VelumOS.Spec.Connections

/-!
# Tasks that have not been answered

The history `follow` keeps the tasks that either call dispatched and whose result
has not been received, oldest first, with the connection each was sent on as long
as that is open. A result answers the oldest task of its sender with its job id;
nothing in a message tells two tasks of one job apart.
-/
namespace VelumOS.Spec
open VelumOS.Source Base.Runs Base.KeyedStore

structure Unanswered where
  call : Call
  worker : Nat
  msg : Message
  conn : Option Sock
  deriving DecidableEq

/-- A task as it is dispatched. -/
def Dispatch.unanswered (call : Call) (task : Dispatch) : Unanswered :=
  ⟨call, task.worker, task.msg, some task.fd⟩

/-- A result from the worker of a task for its job. -/
def answers (result : Message) (task : Unanswered) : Bool :=
  result.senderId.toNat = task.worker ∧
    (TaskResult.view result.payload).jobId = (TaskHeader.view task.msg.payload).jobId

/-- The connection of a task is gone when its descriptor is closed. -/
def Unanswered.afterClose (fd : Sock) (task : Unanswered) : Unanswered :=
  if task.conn = some fd then { task with conn := none } else task

def follow (tasks : List Unanswered) : Action → List Unanswered
  | .dispatched call task => tasks ++ [Dispatch.unanswered call task]
  | .received _ _ msg => if msg.type = .taskResult then tasks.eraseP (answers msg) else tasks
  | .closed fd => tasks.map (Unanswered.afterClose fd)
  | _ => tasks

@[simp] theorem afterClose_call (fd : Sock) (task : Unanswered) :
    (task.afterClose fd).call = task.call := by
  unfold Unanswered.afterClose
  split <;> rfl

@[simp] theorem afterClose_worker (fd : Sock) (task : Unanswered) :
    (task.afterClose fd).worker = task.worker := by
  unfold Unanswered.afterClose
  split <;> rfl

@[simp] theorem afterClose_msg (fd : Sock) (task : Unanswered) :
    (task.afterClose fd).msg = task.msg := by
  unfold Unanswered.afterClose
  split <;> rfl

theorem afterClose_conn (fd other : Sock) (task : Unanswered) :
    (task.afterClose fd).conn = some other ↔ task.conn = some other ∧ other ≠ fd := by
  unfold Unanswered.afterClose
  split
  · next same =>
    rw [same]
    constructor
    · intro gone
      cases gone
    · intro both
      exact absurd (Option.some.inj both.1).symm both.2
  · next different =>
    constructor
    · intro conn
      exact ⟨conn, fun same => different (same ▸ conn)⟩
    · exact And.left

theorem follow_sends (tasks : List Unanswered) (actions : List Action) (sends : OnlySends actions) :
    actions.foldl follow tasks = tasks :=
  foldl_sends follow (fun _ _ _ => rfl) actions sends tasks

theorem follow_dispatched (call : Call) (sent : List Dispatch) (tasks : List Unanswered) :
    (sent.map (Action.dispatched call)).foldl follow tasks =
      tasks ++ sent.map (Dispatch.unanswered call) := by
  induction sent generalizing tasks with
  | nil => simp
  | cons task rest ih =>
    rw [List.map_cons, List.foldl_cons, ih, follow, List.map_cons, List.append_assoc]
    rfl

theorem follow_closeConnection (s : Node) (slot : Slot) (tasks : List Unanswered) :
    (s.closeConnection slot).2.foldl follow tasks =
      tasks.map (Unanswered.afterClose (s.sock slot)) := by
  rw [closeConnection_actions]
  split <;> rfl

end VelumOS.Spec
