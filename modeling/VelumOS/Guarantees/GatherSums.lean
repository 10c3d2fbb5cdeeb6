import VelumOS.Guarantees.ScatterCoverage
import VelumOS.Spec.Connections

/-!
# Gathering the results of a job

`active_jobs` has, for each scattered job, a count and an accumulated value. The
history `gather` is what they are for: it starts at zero with the job and adds up
the results and progress messages that arrive for it. The branch of `handle_sock`
for these messages prints them and adds nothing, so the table stays at zero.
-/
namespace VelumOS.Guarantees.GatherSums
open VelumOS.Source VelumOS.Spec Base.Octets Base.Runs ScatterCoverage

/-- For each recorded job, the sums of the values and the counts received. -/
abbrev Sums := UInt32 → Option (Int × Nat)

/-- `TASK_RESULT` or `TASK_PROGRESS`. -/
def BringsValue (msg : Message) : Prop := msg.type = .taskResult ∨ msg.type = .taskProgress

instance (msg : Message) : Decidable (BringsValue msg) := inferInstanceAs (Decidable (_ ∨ _))

def addResult (sums : Sums) (res : TaskResult) : Sums :=
  Function.update sums res.jobId
    ((sums res.jobId).map fun sum => (sum.1 + res.value.toInt, sum.2 + res.count.toNat))

def gatherMessage (sums : Sums) (msg : Message) : Sums :=
  if BringsValue msg then addResult sums (TaskResult.view msg.payload) else sums

def gather (sums : Sums) : Action → Sums
  | .recorded jobId => Function.update sums jobId (some (0, 0))
  | .received _ _ msg => gatherMessage sums msg
  | _ => sums

/-- What a job's state says it has gathered. -/
def JobState.gathered (job : JobState) : Int × Nat :=
  (job.accumulatedValue.toInt, job.currentDone.toNat)

/-- `active_jobs` holds the exact sums. -/
def SumsExact (s : Node) (sums : Sums) : Prop :=
  ∀ jobId, (s.activeJobs jobId).map JobState.gathered = sums jobId

/-- The step receives something other than zero for a recorded job. -/
def GathersValue (s : Node) (event : Event) : Prop :=
  ∃ slot piece nonempty fits ctx, event = .read slot (.data piece nonempty fits) ctx ∧
    slot.serviced = true ∧ 0 < (s.sock slot).val ∧ BringsValue (s.messageRead piece fits) ∧
    s.activeJobs (TaskResult.view (s.messageRead piece fits).payload).jobId ≠ none ∧
    ((TaskResult.view (s.messageRead piece fits).payload).value ≠ 0 ∨
      (TaskResult.view (s.messageRead piece fits).payload).count ≠ 0)

theorem gather_sends (sums : Sums) (actions : List Action) (sends : OnlySends actions) :
    actions.foldl gather sums = sums :=
  foldl_sends gather (fun _ _ _ => rfl) actions sends sums

theorem gather_dispatched (sums : Sums) (tasks : List Dispatch) :
    (tasks.map (Action.dispatched .distributed)).foldl gather sums = sums :=
  foldl_dispatched gather (fun _ _ _ => rfl) .distributed tasks sums

/-- Adding a result changes nothing exactly when its job is not recorded or it
brings zero. -/
theorem addResult_eq_iff (sums : Sums) (res : TaskResult) :
    addResult sums res = sums ↔ sums res.jobId ≠ none → res.value = 0 ∧ res.count = 0 := by
  have zeroValue : res.value = 0 ↔ res.value.toInt = 0 := by
    rw [← Int32.toInt_inj, Int32.toInt_zero]
  have zeroCount : res.count = 0 ↔ res.count.toNat = 0 := by
    rw [← UInt32.toNat_inj, UInt32.toNat_zero]
  rw [addResult, Function.update_eq_self_iff]
  cases sums res.jobId with
  | none => simp
  | some sum =>
    obtain ⟨value, count⟩ := sum
    simp only [Option.map_some, Option.some.injEq, Prod.mk.injEq, ne_eq, reduceCtorEq,
      not_false_eq_true, true_implies, zeroValue, zeroCount]
    omega

/-- Only a result or progress message that brings something is gathered. -/
theorem gatherMessage_eq_iff (sums : Sums) (msg : Message) :
    gatherMessage sums msg = sums ↔ (BringsValue msg →
      sums (TaskResult.view msg.payload).jobId ≠ none →
        (TaskResult.view msg.payload).value = 0 ∧ (TaskResult.view msg.payload).count = 0) := by
  unfold gatherMessage
  split
  · next brings =>
    rw [addResult_eq_iff]
    exact ⟨fun zero _ => zero, fun zero => zero brings⟩
  · next silent => exact ⟨fun _ brings => absurd brings silent, fun _ => rfl⟩

theorem gather_closeConnection (s : Node) (slot : Slot) (sums : Sums) :
    (s.closeConnection slot).2.foldl gather sums = sums := by
  rw [closeConnection_actions]
  split <;> rfl

/-- A job is recorded in the sums exactly when it is in the table. -/
theorem recorded_iff {s : Node} {sums : Sums} (exact_ : SumsExact s sums) (jobId : UInt32) :
    sums jobId ≠ none ↔ s.activeJobs jobId ≠ none := by
  rw [← exact_]
  simp

/-- A message keeps the sums of an unchanged job table exact unless it brings something
for a job in it. -/
theorem sumsExact_received {s after : Node} {sums : Sums} {slot : Slot} {piece : List UInt8}
    {nonempty : 0 < piece.length} {fits : piece.length ≤ 4099} {ctx : ReadContext}
    (serviced : slot.serviced = true) (live : 0 < (s.sock slot).val) (exact_ : SumsExact s sums)
    (jobs : after.activeJobs = s.activeJobs) :
    SumsExact after (gatherMessage sums (s.messageRead piece fits)) ↔
      ¬ GathersValue s (.read slot (.data piece nonempty fits) ctx) := by
  have same : SumsExact after (gatherMessage sums (s.messageRead piece fits)) ↔
      gatherMessage sums (s.messageRead piece fits) = sums := by
    unfold SumsExact at exact_ ⊢
    simp only [jobs, exact_]
    exact ⟨fun all => (funext all).symm, fun unchanged jobId => by rw [unchanged]⟩
  rw [same, gatherMessage_eq_iff]
  constructor
  · intro zero gathers
    obtain ⟨_, _, _, _, _, event, _, _, brings, recorded, nonzero⟩ := gathers
    cases event
    have both := zero brings ((recorded_iff exact_ _).mpr recorded)
    rcases nonzero with value | count
    · exact value both.1
    · exact count both.2
  · intro nothing brings recorded
    by_contra nonzero
    apply nothing
    refine ⟨slot, piece, nonempty, fits, ctx, rfl, serviced, live, brings,
      (recorded_iff exact_ _).mp recorded, ?_⟩
    tauto

/-- One step keeps the sums exact unless it brings something for a recorded job. -/
theorem sumsExact_step {s after : Node} {sums : Sums} {event : Event} {actions : List Action}
    (effect : Effect s event actions after) (exact_ : SumsExact s sums) :
    SumsExact after (actions.foldl gather sums) ↔ ¬ GathersValue s event := by
  have idle (other : ∀ slot piece nonempty fits ctx, event ≠ .read slot (.data piece nonempty fits) ctx) :
      ¬ GathersValue s event := by
    intro gathers
    obtain ⟨slot, piece, nonempty, fits, ctx, same, _⟩ := gathers
    exact other slot piece nonempty fits ctx same
  cases effect with
  | quiet sends quietly =>
    rw [gather_sends sums _ sends]
    apply iff_of_true exact_
    intro gathers
    obtain ⟨slot, piece, nonempty, fits, ctx, same, serviced, live, _⟩ := gathers
    exact quietly slot _ ctx same ⟨serviced, live⟩
  | connected => exact iff_of_true exact_ (idle (by simp))
  | admitted => exact iff_of_true exact_ (idle (by simp))
  | failedAccept => exact iff_of_true exact_ (idle (by simp))
  | refused => exact iff_of_true exact_ (idle (by simp))
  | @closed slot ctx live serviced =>
    refine iff_of_true ?_ (idle (by simp))
    rw [gather_closeConnection]
    intro jobId
    rw [closeConnection_activeJobs]
    exact exact_ jobId
  | @received slot piece nonempty fits ctx sends status live serviced onlySends =>
    rw [List.foldl_cons, gather_sends _ _ onlySends]
    exact sumsExact_received serviced live exact_ rfl
  | spawned => exact iff_of_true exact_ (idle (by simp))
  | @scattered _ _ _ start stop tasks jobId =>
    refine iff_of_true ?_ (idle (by simp))
    rw [List.foldl_cons, gather_dispatched]
    intro other
    rw [scatter_activeJobs, gather]
    by_cases same : other = jobId
    · rw [same, Function.update_self, Function.update_self]
      rfl
    · rw [Function.update_of_ne same, Function.update_of_ne same]
      exact exact_ other

/-- In a run from start-up, `active_jobs` holds for every scattered job the exact
sums of what was received for it, in every state reached, if and only if no result
or progress message with a value or count other than zero arrives for a job in it. -/
theorem gather_exact_iff (myNodeId : Int) (msgBuffer : Message) {last : Node × Sums}
    {steps : List (Transition (Node × Sums) Event Action)}
    (run : Run (withHistory Node.Step gather) (.boot myNodeId msgBuffer, fun _ => none) steps last) :
    (∀ t ∈ steps, SumsExact t.after.1 t.after.2) ↔
      ∀ t ∈ steps, ¬ GathersValue t.before.1 t.event := by
  refine run.holds_iff (fun _ => True) (fun p => SumsExact p.1 p.2) _ (fun _ _ _ => trivial) ?_
    trivial (fun _ => rfl)
  intro t valid _ before
  rw [valid.history]
  exact sumsExact_step valid.forget.effect before

/-- Node 2 reports the value 7 for a job. -/
def sevenFor (jobId : UInt32) : Message := resultMessage .zeroed 2 .taskResult ⟨jobId, 7, 1⟩

/-- Job 0 is scattered to node 2, which sends a result of job 5 that nobody recorded. -/
theorem gather_exact_scatter : ∃ last steps,
    Run (withHistory Node.Step gather) (.boot 1 .zeroed, fun _ => none) steps last ∧
      (∃ t ∈ steps, t.actions = [.received (.peer 2) fd5 (sevenFor 5)]) ∧
      last.2 0 = some (0, 0) ∧ ∀ t ∈ steps, SumsExact t.after.1 t.after.2 := by
  obtain ⟨task, _, _, scatter⟩ := step_scatter_two
  let after := (connectedTwo.recordJob 0 10).afterScatterSend task
  let sums : Sums := Function.update (fun _ => none) 0 (some (0, 0))
  have receive := step_receive after (.peer 2) .refusing (sevenFor 5) rfl
    (by decide : 0 < (connectedTwo.sock (.peer 2)).val) (.inr rfl)
  have run := ((Run.single (observed step_connectTwo gather fun _ => none)).snoc
    (observed scatter gather _)).snoc (observed receive gather sums)
  have result : TaskResult.view (sevenFor 5).payload = ⟨5, 7, 1⟩ := view_resultMessage _ _ _ _
  have unknown : gatherMessage sums (sevenFor 5) = sums :=
    (gatherMessage_eq_iff _ _).mpr fun _ recorded => by
      rw [result] at recorded
      exact absurd rfl recorded
  refine ⟨_, _, run, ⟨_, List.mem_concat_self, rfl⟩, congrFun unknown 0,
    (gather_exact_iff 1 .zeroed run).mpr ?_⟩
  simp only [List.forall_mem_append, List.forall_mem_singleton]
  refine ⟨⟨?_, ?_⟩, ?_⟩
  · rintro ⟨_, _, _, _, _, event, _⟩
    cases event
  · rintro ⟨_, _, _, _, _, event, _⟩
    cases event
  · rintro ⟨_, _, _, _, _, event, _, _, _, recorded, _⟩
    cases event
    rw [messageRead_whole, result] at recorded
    exact recorded rfl

/-- After the answer of node 2 the accumulated value is still 0. -/
theorem gather_drops_result : ¬ ∀ (myNodeId : Int) (msgBuffer : Message) (last : Node × Sums)
    (steps : List (Transition (Node × Sums) Event Action))
    (_ : Run (withHistory Node.Step gather) (.boot myNodeId msgBuffer, fun _ => none) steps last),
    ∀ t ∈ steps, SumsExact t.after.1 t.after.2 := by
  intro always
  obtain ⟨task, _, _, scatter⟩ := step_scatter_two
  have receive := step_receive ((connectedTwo.recordJob 0 10).afterScatterSend task) (.peer 2)
    .refusing (sevenFor 0) rfl (by decide : 0 < (connectedTwo.sock (.peer 2)).val) (.inr rfl)
  have run := ((Run.single (observed step_connectTwo gather fun _ => none)).snoc
    (observed scatter gather _)).snoc (observed receive gather _)
  have sums : some (0, 0) =
      gatherMessage (Function.update (fun _ => none) 0 (some (0, 0))) (sevenFor 0) 0 :=
    always 1 .zeroed _ _ run _ List.mem_concat_self 0
  have result : TaskResult.view (sevenFor 0).payload = ⟨0, 7, 1⟩ := view_resultMessage _ _ _ _
  have brings : BringsValue (sevenFor 0) := .inl rfl
  rw [gatherMessage, if_pos brings, result] at sums
  exact absurd sums (by decide)

end VelumOS.Guarantees.GatherSums
