import VelumOS.Spec.Scheduling
import VelumOS.Spec.Connections

/-!
# Selecting nodes

`find_best_node` selects the least of the best eligible ids, and a run that marks what it
selects stays balanced: no eligible node gets more than the 10 points of one task ahead of
a node that was given one. The run is one of dispatches only; a report or a disconnect
between them would replace scores.
-/
namespace VelumOS.Guarantees.NodeSelection
open VelumOS.Source VelumOS.Spec Base.Runs Base.Selection

/-- For every table and id: -1 is returned exactly if no other id of the table has
reported free memory, and otherwise the least of the eligible ids whose score is maximal. -/
theorem best_node_argmax (status : ClusterStatus) (myId : Int) :
    (findBestNode status myId = none ↔ ∀ i, ¬ Eligible status myId i) ∧
    ∀ w, findBestNode status myId = some w ↔ ∃ i : Fin 17, i.val = w ∧
      Eligible status myId i ∧ ∀ j, Eligible status myId j →
        (status j).calculateScore ≤ (status i).calculateScore ∧
          ((status j).calculateScore = (status i).calculateScore → i ≤ j) :=
  ⟨findBestNode_eq_none_iff status myId, findBestNode_eq_some_iff status myId⟩

/-! ## Runs of dispatches -/

/-- One dispatch: `find_best_node` returns a node, and it is marked busy. -/
def DispatchTo (myId : Int) (status : ClusterStatus) (winner : Nat) (marked : List Nat)
    (after : ClusterStatus) : Prop :=
  findBestNode status myId = some winner ∧ marked = [winner] ∧
    markNodeBusy status winner = .ok after

/-- The queue length of the node that is marked does not wrap. -/
def Room (t : Transition ClusterStatus Nat Nat) : Prop :=
  ∀ i : Fin 17, i.val = t.event → (t.before i).taskQueueLen ≠ 255

/-- A call of `velum_spawn_wasm` that sends is a dispatch. -/
theorem dispatch_of_spawnWasm {s after : Node} {ctx : SpawnContext} {file : Option File}
    {func : List UInt8} {args : List (List UInt8)} {call : Call} {task : Dispatch}
    (step : s.Step (.spawnWasm ctx file func args) [.dispatched call task] after) :
    DispatchTo s.myNodeId s.clusterStatus task.worker [task.worker] after.clusterStatus := by
  rcases velumSpawnWasm_cases ctx file func args s after _ step.2 with
    ⟨_, none⟩ | ⟨winner, target, msg, chosen, _, rfl, sent⟩
  · cases none
  · cases sent
    exact ⟨chosen, rfl, markNodeBusy_ok s.clusterStatus winner⟩

/-- A dispatch lowers a best score by 10 and adds one task. -/
theorem dispatch_effects {myId : Int} {status after : ClusterStatus} {winner : Nat}
    {marked : List Nat} (step : DispatchTo myId status winner marked after)
    (room : ∀ i : Fin 17, i.val = winner → (status i).taskQueueLen ≠ 255) :
    ∃ w : Fin 17, w.val = winner ∧ (∀ j, Eligible status myId j → scores status j ≤ scores status w) ∧
      scores after = lower 10 (scores status) w ∧
      (∀ i, Eligible after myId i ↔ Eligible status myId i) ∧ queued after = queued status + 1 := by
  obtain ⟨chosen, _, marks⟩ := step
  obtain rfl := Except.ok.inj (marks.symm.trans (markNodeBusy_ok status winner))
  obtain ⟨w, rfl, eligible, best⟩ := (findBestNode_eq_some_iff status myId winner).mp chosen
  exact ⟨w, rfl, fun j other => (best j other).1,
    scores_markedBusy_of_room status w eligible.1 (room w rfl),
    eligible_markedBusy status w.val myId, queued_markedBusy status w eligible.1 (room w rfl)⟩

/-- A run keeps the eligible ids and the balance, and adds a task for each dispatch. -/
theorem run_balanced {myId : Int} {start last : ClusterStatus}
    {steps : List (Transition ClusterStatus Nat Nat)}
    (run : Run (DispatchTo myId) start steps last) (room : ∀ t ∈ steps, Room t) :
    Balanced (Eligible last myId) 10 (scores last) (fun i => ∃ t ∈ steps, t.event = i.val) ∧
      (∀ i, Eligible last myId i ↔ Eligible start myId i) ∧
      queued last = queued start + steps.length := by
  induction run with
  | nil =>
    refine ⟨?_, fun i => Iff.rfl, by rw [List.length_nil, Nat.add_zero]⟩
    have none : (fun i : Fin 17 => ∃ t ∈ ([] : List (Transition ClusterStatus Nat Nat)),
        t.event = i.val) = fun _ => False := by simp
    rw [none]
    exact balanced_none _ _ _
  | @snoc mid last steps winner marked earlier step ih =>
    obtain ⟨balanced, same, total⟩ := ih fun t member => room t (List.mem_append_left _ member)
    obtain ⟨w, rfl, best, lowered, kept, one⟩ :=
      dispatch_effects step (room _ List.mem_concat_self)
    refine ⟨?_, fun i => (kept i).trans (same i), ?_⟩
    · rw [lowered, funext fun i => propext (kept i)]
      intro i selected
      apply balanced.lower (by decide) best
      obtain ⟨t, member, event⟩ := selected
      rcases List.mem_append.mp member with old | new
      · exact .inl ⟨t, old, event⟩
      · rw [List.mem_singleton.mp new] at event
        exact .inr (Fin.ext event.symm)
    · rw [one, total, List.length_append, List.length_singleton, Nat.add_assoc]

/-- After every run of dispatches in which no queue length wraps, no eligible node is
more than 10 ahead of a node that got a task, the eligible ids are those from before, and
the queues have grown by the number of dispatches. -/
theorem dispatches_balanced (myId : Int) {start last : ClusterStatus}
    {steps : List (Transition ClusterStatus Nat Nat)}
    (run : Run (DispatchTo myId) start steps last) (room : ∀ t ∈ steps, Room t) :
    (∀ i : Fin 17, (∃ t ∈ steps, t.event = i.val) → ∀ j, Eligible last myId j →
      (last j).calculateScore ≤ (last i).calculateScore + 10) ∧
    (∀ i, Eligible last myId i ↔ Eligible start myId i) ∧
    queued last = queued start + steps.length :=
  run_balanced run room

/-- Two nodes with the same memory. -/
def twoEqual : ClusterStatus := fun i => if i = 2 ∨ i = 3 then ⟨0, 100, 0⟩ else .zero

/-- Two dispatches of node 1 go to the two nodes in turn. -/
theorem dispatches_balanced_two : ∃ last steps, Run (DispatchTo 1) twoEqual steps last ∧
    steps.map Transition.event = [2, 3] ∧
    (∀ i : Fin 17, (∃ t ∈ steps, t.event = i.val) → ∀ j, Eligible last 1 j →
      (last j).calculateScore ≤ (last i).calculateScore + 10) ∧
    queued last = queued twoEqual + 2 := by
  have first : DispatchTo 1 twoEqual 2 [2] (markedBusy twoEqual 2) := ⟨by decide, rfl, markNodeBusy_ok _ _⟩
  have second : DispatchTo 1 (markedBusy twoEqual 2) 3 [3]
      (markedBusy (markedBusy twoEqual 2) 3) := ⟨by decide, rfl, markNodeBusy_ok _ _⟩
  have run := (Run.single first).snoc second
  obtain ⟨balanced, _, total⟩ := dispatches_balanced 1 run (by
    intro t member i entry
    rcases List.mem_append.mp member with old | new
    · rw [List.mem_singleton.mp old] at entry ⊢
      rw [show i = 2 from Fin.ext entry]
      decide
    · rw [List.mem_singleton.mp new] at entry ⊢
      rw [show i = 3 from Fin.ext entry]
      decide)
  exact ⟨_, _, run, rfl, balanced, total⟩

end VelumOS.Guarantees.NodeSelection
