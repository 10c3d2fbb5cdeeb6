import VelumOS.Guarantees.ScatterCoverage
import VelumOS.Spec.Requests

/-!
# Job ids

A scattered job gets the id `rand() % 9999` and is stored in `active_jobs` under it,
whether or not a job with that id is already there. Nothing is ever taken out of the
table, so the ids are unique exactly as long as no call draws one that is in it.
-/
namespace VelumOS.Guarantees.JobIds
open VelumOS.Source VelumOS.Spec Base.Runs ScatterCoverage

/-- The ids of the jobs recorded so far, latest first. -/
def record (ids : List UInt32) : Action → List UInt32
  | .recorded jobId => jobId :: ids
  | _ => ids

/-- A job that the step records is new, and the step changes no other. -/
def FreshJob (s after : Node) (actions : List Action) : Prop :=
  ∀ jobId, .recorded jobId ∈ actions → s.activeJobs jobId = none ∧
    after.activeJobs jobId ≠ none ∧
    ∀ other state, s.activeJobs other = some state → after.activeJobs other = some state

/-- The step is a scattering call that draws the id of a recorded job. -/
def Collides (s : Node) (event : Event) : Prop :=
  ∃ ctx file func start stop, event = .distributed ctx file func start stop ∧
    Scatters s file ∧ s.activeJobs (jobIdOf ctx) ≠ none

theorem record_sends (ids : List UInt32) (actions : List Action) (sends : OnlySends actions) :
    actions.foldl record ids = ids :=
  foldl_sends record (fun _ _ _ => rfl) actions sends ids

theorem record_dispatched (ids : List UInt32) (tasks : List Dispatch) :
    (tasks.map (Action.dispatched .distributed)).foldl record ids = ids :=
  foldl_dispatched record (fun _ _ _ => rfl) .distributed tasks ids

theorem record_closeConnection (s : Node) (slot : Slot) (ids : List UInt32) :
    (s.closeConnection slot).2.foldl record ids = ids := by
  rw [closeConnection_actions]
  split <;> rfl

/-- Only a scattering call touches the table of jobs. -/
theorem jobs_of_effect {s after : Node} {event : Event} {actions : List Action}
    (effect : Effect s event actions after) (ids : List UInt32)
    (other : ∀ ctx file func start stop, event ≠ .distributed ctx file func start stop) :
    after.activeJobs = s.activeJobs ∧ actions.foldl record ids = ids ∧
      ∀ jobId, .recorded jobId ∉ actions := by
  cases effect with
  | quiet sends =>
    refine ⟨rfl, record_sends ids actions sends, ?_⟩
    intro jobId member
    obtain ⟨fd, msg, same⟩ := sends _ member
    cases same
  | connected => simp [record]
  | admitted => simp [record]
  | failedAccept => simp
  | refused => simp [record]
  | @closed slot =>
    refine ⟨closeConnection_activeJobs s slot, record_closeConnection s slot ids, ?_⟩
    intro jobId member
    rw [closeConnection_actions] at member
    split at member <;> simp at member
  | received _ _ _ sends =>
    rw [List.foldl_cons, record_sends _ _ sends]
    refine ⟨rfl, rfl, ?_⟩
    intro jobId member
    rcases List.mem_cons.mp member with same | later
    · cases same
    · obtain ⟨fd, msg, same⟩ := sends _ later
      cases same
  | spawned => simp [record]
  | scattered => exact absurd rfl (other _ _ _ _ _)

/-- What a step does to the table of jobs and to the history. -/
theorem jobs_of_step {s after : Node} {event : Event} {actions : List Action}
    (step : s.Step event actions after) (ids : List UInt32) :
    (after.activeJobs = s.activeJobs ∧ actions.foldl record ids = ids ∧
      (∀ jobId, .recorded jobId ∉ actions) ∧ ¬ Collides s event) ∨
    ∃ jobId state, after.activeJobs = Function.update s.activeJobs jobId (some state) ∧
      actions.foldl record ids = jobId :: ids ∧ (∀ other, .recorded other ∈ actions ↔ other = jobId) ∧
      (Collides s event ↔ s.activeJobs jobId ≠ none) := by
  cases event with
  | distributed ctx file func start stop =>
    by_cases scatters : Scatters s file
    · obtain ⟨tasks, rfl, _, _, rfl⟩ := distributed_requests step.2 scatters
      have jobs := scatter_activeJobs s (jobIdOf ctx) (stop - start) tasks
      refine .inr ⟨jobIdOf ctx, _, jobs, ?_, by simp, ?_⟩
      · rw [List.foldl_cons, record_dispatched, record]
      · constructor
        · intro collides
          obtain ⟨_, _, _, _, _, same, _, taken⟩ := collides
          cases same
          exact taken
        · intro taken
          exact ⟨ctx, file, func, start, stop, rfl, scatters, taken⟩
    · obtain ⟨rfl, rfl⟩ := distributed_idle step.2 scatters
      refine .inl ⟨rfl, rfl, by simp, ?_⟩
      intro collides
      obtain ⟨_, _, _, _, _, same, does, _⟩ := collides
      cases same
      exact scatters does
  | _ =>
    obtain ⟨jobs, ids, none⟩ := jobs_of_effect step.effect ids (by simp)
    exact .inl ⟨jobs, ids, none, by simp [Collides]⟩

/-- A step records a fresh job or none exactly if it does not collide. -/
theorem freshJob_iff {s after : Node} {event : Event} {actions : List Action}
    (step : s.Step event actions after) : FreshJob s after actions ↔ ¬ Collides s event := by
  rcases jobs_of_step step [] with ⟨_, _, none, calm⟩ | ⟨jobId, state, jobs, _, recorded, taken⟩
  · exact iff_of_true (fun jobId member => absurd member (none jobId)) calm
  · rw [taken, not_not]
    constructor
    · intro fresh
      exact (fresh jobId ((recorded jobId).mpr rfl)).1
    · intro new other member
      cases (recorded other).mp member
      refine ⟨new, by simp [jobs], ?_⟩
      intro old earlier stored
      have different : old ≠ jobId := by
        intro same
        rw [same, new] at stored
        cases stored
      rw [jobs, Function.update_of_ne different, stored]

/-- The ids recorded so far are those in the table. -/
def Recorded (s : Node) (ids : List UInt32) : Prop :=
  ∀ jobId, jobId ∈ ids ↔ s.activeJobs jobId ≠ none

theorem recorded_step {s after : Node} {event : Event} {actions : List Action} {ids : List UInt32}
    (step : s.Step event actions after) (recorded : Recorded s ids) :
    Recorded after (actions.foldl record ids) := by
  intro other
  rcases jobs_of_step step ids with ⟨jobs, same, _⟩ | ⟨jobId, state, jobs, added, _⟩
  · rw [same, jobs]
    exact recorded other
  · rw [added, jobs, List.mem_cons, recorded other, Function.update_apply]
    by_cases here : other = jobId <;> simp [here]

theorem nodup_step {s after : Node} {event : Event} {actions : List Action} {ids : List UInt32}
    (step : s.Step event actions after) (recorded : Recorded s ids) (unique : ids.Nodup)
    (calm : ¬ Collides s event) : (actions.foldl record ids).Nodup := by
  rcases jobs_of_step step ids with ⟨_, same, _⟩ | ⟨jobId, state, _, added, _, taken⟩
  · rw [same]
    exact unique
  · rw [added, List.nodup_cons]
    refine ⟨?_, unique⟩
    rw [recorded, ← taken]
    exact calm

/-- In a run from start-up, every recorded job is new in the table and changes no
earlier one, and no two recorded jobs share an id, if and only if no scattering call
of the run draws the id of a job already in the table. -/
theorem job_ids_unique_iff (myNodeId : Int) (msgBuffer : Message) {last : Node × List UInt32}
    {steps : List (Transition (Node × List UInt32) Event Action)}
    (run : Run (withHistory Node.Step record) (.boot myNodeId msgBuffer, []) steps last) :
    (∀ t ∈ steps, FreshJob t.before.1 t.after.1 t.actions ∧ t.after.2.Nodup) ↔
      ∀ t ∈ steps, ¬ Collides t.before.1 t.event := by
  constructor
  · intro always t member
    exact (freshJob_iff (run.valid t member).1).mp (always t member).1
  · intro calm t member
    have held := run.guarded_invariant (fun p => Recorded p.1 p.2 ∧ p.2.Nodup)
      (fun t => ¬ Collides t.before.1 t.event) (fun t valid inv met => by
        rw [valid.history]
        exact ⟨recorded_step valid.1 inv.1, nodup_step valid.1 inv.1 inv.2 met⟩)
      ⟨fun jobId => by simp [Node.boot], List.nodup_nil⟩ calm
    exact ⟨(freshJob_iff (run.valid t member).1).mpr (calm t member), (held.2 t member).2.2⟩

/-- Node 2 stays the only worker after a job was scattered to it. -/
theorem workers_after_scatter (task : Dispatch) :
    ((connectedTwo.recordJob 0 10).afterScatterSend task).findAllWorkers 1 = [2] := by
  show connectedTwo.findAllWorkers 1 = [2]
  decide

/-- Two jobs are scattered to node 2 and draw the ids 0 and 1. -/
theorem job_ids_unique_scatter : ∃ last steps,
    Run (withHistory Node.Step record) (.boot 1 .zeroed, []) steps last ∧ last.2 = [1, 0] ∧
      ∀ t ∈ steps, FreshJob t.before.1 t.after.1 t.actions ∧ t.after.2.Nodup := by
  obtain ⟨task, _, _, scatter⟩ := step_scatter_two
  obtain ⟨fd, msg, _, _, sent⟩ := distributed_single (drawing 1) [102] 0 20
    ((connectedTwo.recordJob 0 10).afterScatterSend task) 2 (workers_after_scatter task)
  have again : Node.Step ((connectedTwo.recordJob 0 10).afterScatterSend task)
    (.distributed (drawing 1) (some ⟨(0 : Nat), []⟩) [102] 0 20) _ _ := ⟨trivial, sent⟩
  have run := ((Run.single (observed step_connectTwo record [])).snoc
    (observed scatter record [])).snoc (observed again record [0])
  refine ⟨_, _, run, rfl, (job_ids_unique_iff 1 .zeroed run).mpr ?_⟩
  simp only [List.forall_mem_append, List.forall_mem_singleton]
  refine ⟨⟨?_, ?_⟩, ?_⟩
  · rintro ⟨_, _, _, _, _, event, _⟩
    cases event
  · rintro ⟨_, _, _, _, _, _, _, taken⟩
    exact taken rfl
  · rintro ⟨_, _, _, _, _, event, _, taken⟩
    cases event
    exact taken rfl

/-- Two jobs draw the same id: the second takes the place of the first. -/
theorem job_ids_collide : ¬ ∀ (myNodeId : Int) (msgBuffer : Message) (last : Node × List UInt32)
    (steps : List (Transition (Node × List UInt32) Event Action))
    (_ : Run (withHistory Node.Step record) (.boot myNodeId msgBuffer, []) steps last),
    ∀ t ∈ steps, FreshJob t.before.1 t.after.1 t.actions ∧ t.after.2.Nodup := by
  intro always
  obtain ⟨task, _, _, scatter⟩ := step_scatter_two
  have connected : ((connectedTwo.recordJob 0 10).afterScatterSend task).findAllWorkers 1 ≠ [] := by
    rw [workers_after_scatter]
    decide
  obtain ⟨tasks, sent, _⟩ := distributed_sends .zeroed [] [102] 0 20
    ((connectedTwo.recordJob 0 10).afterScatterSend task) (by decide) connected
  have again : Node.Step ((connectedTwo.recordJob 0 10).afterScatterSend task)
    (.distributed .zeroed (some ⟨(0 : Nat), []⟩) [102] 0 20) _ _ := ⟨trivial, sent⟩
  have run := ((Run.single (observed step_connectTwo record [])).snoc
    (observed scatter record _)).snoc (observed again record _)
  have fresh := (always 1 .zeroed _ _ run _ List.mem_concat_self).1
  refine (freshJob_iff again).mp fresh ⟨.zeroed, _, [102], 0, 20, rfl, ⟨⟨_, rfl, by decide⟩,
    connected⟩, ?_⟩
  show (Function.update connectedTwo.activeJobs 0 (some ⟨(10 : Int32).toUInt32, 0, 0⟩) 0) ≠ none
  simp

end VelumOS.Guarantees.JobIds
