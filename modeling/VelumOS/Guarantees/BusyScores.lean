import VelumOS.Spec.Scheduling
import VelumOS.Guarantees.ScatterCoverage
import VelumOS.Guarantees.WorkerReachable

/-!
# What a mark does to the score

Between reports the status table of a node changes through `mark_node_busy` alone, once
for each task of either spawn call. The queue length is a `uint8_t`: a mark at 255 takes
it to 0, and the busiest node becomes the most attractive one.
-/
namespace VelumOS.Guarantees.BusyScores
open VelumOS.Source VelumOS.Spec Base.Runs ScatterCoverage WorkerReachable

/-- The node that an action marks busy. -/
def marked : Action → Option Nat
  | .dispatched _ task => some task.worker
  | _ => none

/-- The nodes that a run marks busy, in order. -/
def marks (steps : List (Transition Node Event Action)) : List Nat :=
  steps.flatMap fun t => t.actions.filterMap marked

/-- No status report comes in and no node is declared dead. -/
def Undisturbed (actions : List Action) : Prop :=
  (∀ slot fd msg, .received slot fd msg ∈ actions → msg.type ≠ .statusReport) ∧
    ∀ nodeId, .died nodeId ∉ actions

/-- Marking a node of the table lowers its score by 10 and changes no other score. -/
def Lowers (status : ClusterStatus) (node : Nat) : Prop :=
  ∃ after, markNodeBusy status node = .ok after ∧ ∀ i : Fin 17, i.val = node → i ≠ 0 →
    (after i).calculateScore = (status i).calculateScore - 10 ∧
      ∀ j, j ≠ i → (after j).calculateScore = (status j).calculateScore

/-- The queue of a node of the table has fewer than 255 tasks. -/
def HasRoom (status : ClusterStatus) (node : Nat) : Prop :=
  ∀ i : Fin 17, i.val = node → i ≠ 0 → (status i).taskQueueLen ≠ 255

theorem lowers_iff (status : ClusterStatus) (node : Nat) :
    Lowers status node ↔ HasRoom status node := by
  constructor
  · rintro ⟨after, marked, lowers⟩ i same nonzero full
    subst same
    obtain rfl := Except.ok.inj (marked.symm.trans (markNodeBusy_ok status i.val))
    have scored := scores_markedBusy status i nonzero i
    rw [if_pos rfl, if_pos full] at scored
    have lowered := (lowers i rfl nonzero).1
    unfold scores at scored
    omega
  · intro room
    refine ⟨_, markNodeBusy_ok status node, fun i same nonzero => ?_⟩
    subst same
    have lowered := scores_markedBusy_of_room status i nonzero (room i rfl nonzero)
    refine ⟨?_, fun j other => by rw [markedBusy_of_ne status other]⟩
    exact (congrFun lowered i).trans (Function.update_self ..)

/-! ## A run between reports -/

theorem marked_sends (actions : List Action) (sends : OnlySends actions) :
    actions.filterMap marked = [] := by
  rw [List.filterMap_eq_nil_iff]
  intro a member
  obtain ⟨fd, msg, rfl⟩ := sends a member
  rfl

theorem marked_dispatched (tasks : List Dispatch) :
    (tasks.map (Action.dispatched .distributed)).filterMap marked = tasks.map Dispatch.worker := by
  rw [List.filterMap_map]
  exact List.filterMap_eq_map_iff_forall_eq_some.mpr fun _ _ => rfl

/-- Between reports a step changes the status table by its marks. -/
theorem status_of_step {s after : Node} {event : Event} {actions : List Action}
    (step : s.Step event actions after) (calm : Undisturbed actions) :
    after.clusterStatus = markAll s.clusterStatus (actions.filterMap marked) := by
  have success := step.2
  cases step.effect with
  | quiet sends =>
    rw [marked_sends _ sends]
    rfl
  | connected => rfl
  | admitted => rfl
  | failedAccept => rfl
  | refused => rfl
  | @closed slot ctx =>
    have unmapped : s.socketToId (s.sock slot) = -1 := by
      by_contra mapped
      apply calm.2 (s.socketToId (s.sock slot))
      rw [closeConnection_actions, if_neg mapped]
      simp
    rw [closeConnection_actions, closeConnection_clusterStatus, if_pos unmapped, if_pos unmapped]
    rfl
  | @received slot piece nonempty fits ctx sends status live serviced onlySends =>
    simp only [Node.step, serviced, if_true] at success
    obtain ⟨_, _, processed⟩ := handleSock_data ctx s _ slot piece nonempty fits _ live success
    have kept : status = s.clusterStatus := by
      funext w
      by_contra changed
      exact calm.1 slot _ _ List.mem_cons_self (processMessage_changes processed changed).1
    rw [List.filterMap_cons_none rfl, marked_sends _ onlySends, kept]
    rfl
  | spawned => rfl
  | scattered tasks jobId =>
    rw [List.filterMap_cons_none rfl, marked_dispatched, scatter_clusterStatus]

/-- Between reports a run changes the status table by its marks. -/
theorem status_of_run {start last : Node} {steps : List (Transition Node Event Action)}
    (run : Run Node.Step start steps last) (calm : ∀ t ∈ steps, Undisturbed t.actions) :
    last.clusterStatus = markAll start.clusterStatus (marks steps) := by
  induction run with
  | nil => rfl
  | snoc earlier step ih =>
    have before := ih fun t member => calm t (List.mem_append_left _ member)
    have after := status_of_step step (calm _ List.mem_concat_self)
    rw [after, before, ← markAll_append, marks, marks, List.flatMap_append, List.flatMap_singleton]

/-- In every run without reports and disconnects the status table changes by the marks of
its dispatches, and each of them lowers the score of its node by 10 and changes no other
score, if and only if no mark finds a queue length of 255. -/
theorem busy_lowers_iff {start last : Node} {steps : List (Transition Node Event Action)}
    (run : Run Node.Step start steps last) (calm : ∀ t ∈ steps, Undisturbed t.actions) :
    last.clusterStatus = markAll start.clusterStatus (marks steps) ∧
      ((∀ before node later, marks steps = before ++ node :: later →
          Lowers (markAll start.clusterStatus before) node) ↔
        ∀ before node later, marks steps = before ++ node :: later →
          HasRoom (markAll start.clusterStatus before) node) := by
  refine ⟨status_of_run run calm, ?_⟩
  simp only [lowers_iff]

/-- Node 1 with a connection to node 2, whose status is known. -/
def statusOfTwo (status : NodeStatus) : Node :=
  { connectedTwo with clusterStatus := Function.update (fun _ => .zero) 2 status }

theorem workers_statusOfTwo (status : NodeStatus) :
    (statusOfTwo status).findAllWorkers (statusOfTwo status).myNodeId = [2] :=
  show connectedTwo.findAllWorkers connectedTwo.myNodeId = [2] by decide

/-- A node with one worker can send it any number of tasks between reports. -/
theorem run_marks (start : Node) (worker : Nat)
    (workers : start.findAllWorkers start.myNodeId = [worker]) (n : Nat) :
    ∃ last steps, Run Node.Step start steps last ∧ (∀ t ∈ steps, Undisturbed t.actions) ∧
      marks steps = List.replicate n worker ∧ last.findAllWorkers last.myNodeId = [worker] := by
  induction n with
  | zero => exact ⟨start, [], .nil start, by simp, rfl, workers⟩
  | succ n ih =>
    obtain ⟨mid, steps, run, calm, each, same⟩ := ih
    obtain ⟨fd, msg, _, _, sent⟩ := distributed_single .zeroed [102] 0 10 mid worker same
    have step : mid.Step (.distributed .zeroed (some ⟨(0 : Nat), []⟩) [102] 0 10) _ _ :=
      ⟨trivial, sent⟩
    refine ⟨_, _, run.snoc step, ?_, ?_, same⟩
    · intro t member
      rcases List.mem_append.mp member with old | new
      · exact calm t old
      · rw [List.mem_singleton.mp new]
        exact ⟨by simp, by simp⟩
    · rw [marks, List.flatMap_append, ← marks, each, List.replicate_succ']
      rfl

/-- One task costs the idle node 2 ten points. -/
theorem busy_lowers_idle : ∃ last steps, Run Node.Step (statusOfTwo ⟨0, 100, 0⟩) steps last ∧
    marks steps = [2] ∧ Lowers (statusOfTwo ⟨0, 100, 0⟩).clusterStatus 2 := by
  obtain ⟨last, steps, run, calm, one, _⟩ :=
    run_marks (statusOfTwo ⟨0, 100, 0⟩) 2 (workers_statusOfTwo _) 1
  refine ⟨last, steps, run, one, ?_⟩
  apply ((busy_lowers_iff run calm).2.mpr _) [] 2 [] one
  intro before node later split i same nonzero
  rw [one] at split
  obtain ⟨rfl, rfl, rfl⟩ : before = [] ∧ node = 2 ∧ later = [] := by
    cases before with
    | nil => simpa using split.symm
    | cons first rest => simp at split
  rw [show i = 2 from Fin.ext same]
  decide

/-- Node 1 after node 2 was connected and has reported an empty queue. -/
theorem run_report : ∃ start steps, Run Node.Step (.boot 1 .zeroed) steps start ∧
    start.findAllWorkers start.myNodeId = [2] ∧ (start.clusterStatus 2).taskQueueLen = 0 :=
  ⟨_, _, (Run.single step_connectTwo).snoc
    step_reportTwo, by decide, by decide⟩

/-- Behind 255 tasks for node 2 its queue length is full, and one more makes it the most
attractive. -/
theorem busy_raises_full : ¬ ∀ (myNodeId : Int) (buffer : Message) (start last : Node)
    (earlier steps : List (Transition Node Event Action)),
    Run Node.Step (.boot myNodeId buffer) earlier start → Run Node.Step start steps last →
    (∀ t ∈ steps, Undisturbed t.actions) →
    ∀ before node later, marks steps = before ++ node :: later →
      Lowers (markAll start.clusterStatus before) node := by
  intro always
  obtain ⟨start, earlier, reported, workers, empty⟩ := run_report
  obtain ⟨last, steps, run, calm, each, _⟩ := run_marks start 2 workers 256
  have lowers := always 1 .zeroed start last earlier steps reported run calm
    (List.replicate 255 2) 2 [] (by rw [each, List.replicate_succ'])
  have full : (markAll start.clusterStatus (List.replicate 255 2) 2).taskQueueLen = 255 := by
    rw [markAll_apply, empty]
    rw [show ((2 : Fin 17).val) = 2 from rfl, List.count_replicate_self]
    rfl
  exact (lowers_iff _ 2).mp lowers 2 rfl (by decide) full

end VelumOS.Guarantees.BusyScores
