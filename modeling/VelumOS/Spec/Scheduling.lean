import VelumOS.Source.Spawn
import VelumOS.Base.Selection

/-!
# Scheduling

What `find_best_node` and `mark_node_busy` do to the nodes and their scores: the scan is
the first maximum over the eligible ids, since no score is as low as its sentinel, and a
mark lowers one score by 10 as long as the eight bits of the queue length do not wrap.
-/
namespace VelumOS.Spec
open VelumOS.Source Base.Selection

/-- The scores of the status table. -/
def scores (status : ClusterStatus) (i : Fin 17) : Int := (status i).calculateScore

/-- A foreign id whose node has reported free memory. -/
def Eligible (status : ClusterStatus) (myId : Int) (i : Fin 17) : Prop :=
  i ≠ 0 ∧ (i.val : Int) ≠ myId ∧ 0 < (status i).ramFreeKb.toNat

instance (status : ClusterStatus) (myId : Int) : DecidablePred (Eligible status myId) :=
  fun _ => inferInstanceAs (Decidable (_ ∧ _ ∧ _))

def eligibleIds (status : ClusterStatus) (myId : Int) : List (Fin 17) :=
  (List.finRange 17).filter (Eligible status myId)

@[simp] theorem mem_eligibleIds (status : ClusterStatus) (myId : Int) (i : Fin 17) :
    i ∈ eligibleIds status myId ↔ Eligible status myId i := by simp [eligibleIds]

/-- No value of the fields brings a score down to the sentinel of the scan. -/
theorem sentinel_lt_score (status : NodeStatus) : -10000 < status.calculateScore := by
  have cpu := status.cpuLoad.toNat_lt
  have queue := status.taskQueueLen.toNat_lt
  unfold NodeStatus.calculateScore
  omega

/-! ## `find_best_node` -/

/-- A scan state of the model as `find_best_node` keeps it. -/
def scanned (best : Option (Fin 17) × Int) : Option Nat × Int := (best.1.map Fin.val, best.2)

/-- A round of the scan improves on an eligible node and skips the others. -/
theorem considerNode_scanned (status : ClusterStatus) (myId : Int)
    (best : Option (Fin 17) × Int) (i : Fin 17) :
    considerNode status myId (scanned best) i =
      if Eligible status myId i then scanned (improve (scores status) best i)
      else scanned best := by
  have zero : i.val = 0 ↔ i = 0 := by rw [Fin.ext_iff]; rfl
  unfold considerNode
  by_cases skipped : i.val = 0 ∨ (i.val : Int) = myId
  · have not : ¬ Eligible status myId i := by
      rintro ⟨nonzero, foreign, _⟩
      rcases skipped with first | own
      · exact nonzero (zero.mp first)
      · exact foreign own
    rw [if_pos skipped, if_neg not]
  · rw [if_neg skipped]
    rw [not_or, zero] at skipped
    by_cases memory : 0 < (status i).ramFreeKb.toNat
    · have eligible : Eligible status myId i := ⟨skipped.1, skipped.2, memory⟩
      rw [if_pos memory, if_pos eligible]
      unfold improve
      by_cases ahead : best.2 < scores status i
      · rw [if_pos ahead]
        exact if_pos ahead
      · rw [if_neg ahead]
        exact if_neg ahead
    · rw [if_neg memory, if_neg fun eligible => memory eligible.2.2]

theorem foldl_considerNode (status : ClusterStatus) (myId : Int) (is : List (Fin 17))
    (best : Option (Fin 17) × Int) :
    is.foldl (considerNode status myId) (scanned best) =
      scanned ((is.filter (Eligible status myId)).foldl (improve (scores status)) best) := by
  induction is generalizing best with
  | nil => rfl
  | cons i rest ih =>
    rw [List.foldl_cons, considerNode_scanned, List.filter_cons]
    by_cases eligible : Eligible status myId i
    · simp only [eligible, decide_true, if_true, List.foldl_cons]
      exact ih _
    · simp only [eligible, decide_false, Bool.false_eq_true, if_false]
      exact ih _

/-- `find_best_node` is the first maximum over the eligible ids. -/
theorem findBestNode_eq (status : ClusterStatus) (myId : Int) :
    findBestNode status myId =
      ((eligibleIds status myId).argmax (scores status)).map Fin.val := by
  have scan := foldl_improve (scores status) (-10000) (eligibleIds status myId)
    fun i _ => sentinel_lt_score (status i)
  have start : ((none, -10000) : Option Nat × Int) = scanned (none, -10000) := rfl
  rw [findBestNode, start, foldl_considerNode]
  rw [eligibleIds] at scan ⊢
  rw [scan]
  cases ((List.finRange 17).filter (Eligible status myId)).argmax (scores status) <;> rfl

theorem eligibleIds_ascending (status : ClusterStatus) (myId : Int) :
    (eligibleIds status myId).Pairwise (· < ·) :=
  (List.sortedLT_finRange 17).pairwise.filter _

/-- It returns -1 exactly when no id is eligible. -/
theorem findBestNode_eq_none_iff (status : ClusterStatus) (myId : Int) :
    findBestNode status myId = none ↔ ∀ i, ¬ Eligible status myId i := by
  rw [findBestNode_eq, Option.map_eq_none_iff, List.argmax_eq_none, List.eq_nil_iff_forall_not_mem]
  simp only [mem_eligibleIds]

/-- It returns the least of the eligible ids with the greatest score. -/
theorem findBestNode_eq_some_iff (status : ClusterStatus) (myId : Int) (w : Nat) :
    findBestNode status myId = some w ↔ ∃ i : Fin 17, i.val = w ∧ Eligible status myId i ∧
      ∀ j, Eligible status myId j → scores status j ≤ scores status i ∧
        (scores status j = scores status i → i ≤ j) := by
  rw [findBestNode_eq, Option.map_eq_some_iff]
  simp only [argmax_eq_some_iff_least _ (eligibleIds_ascending status myId), mem_eligibleIds]
  constructor
  · rintro ⟨i, best, same⟩
    exact ⟨i, same, best⟩
  · rintro ⟨i, same, best⟩
    exact ⟨i, best, same⟩

/-! ## `mark_node_busy` -/

/-- A mark leaves memory, and so eligibility, as it was. -/
@[simp] theorem markedBusy_ram (status : ClusterStatus) (nodeId : Int) (i : Fin 17) :
    (markedBusy status nodeId i).ramFreeKb = (status i).ramFreeKb := by
  rw [markedBusy_apply]
  split <;> rfl

theorem eligible_markedBusy (status : ClusterStatus) (nodeId myId : Int) (i : Fin 17) :
    Eligible (markedBusy status nodeId) myId i ↔ Eligible status myId i := by
  simp only [Eligible, markedBusy_ram]

/-- One more task in a queue whose length does not wrap. -/
theorem toNat_enqueue (queue : UInt8) (room : queue ≠ 255) :
    (queue + 1).toNat = queue.toNat + 1 := by
  have bound := queue.toNat_lt
  have below : queue.toNat ≠ 255 := fun full => room (UInt8.toNat_inj.mp full)
  have next : (queue + 1).toNat = (queue.toNat + 1) % 256 := UInt8.toNat_add _ _
  omega

/-- It costs 10; a length that wraps gains 2550. -/
theorem score_enqueue (status : NodeStatus) :
    NodeStatus.calculateScore { status with taskQueueLen := status.taskQueueLen + 1 } =
      status.calculateScore + if status.taskQueueLen = 255 then 2550 else -10 := by
  unfold NodeStatus.calculateScore
  by_cases wraps : status.taskQueueLen = 255
  · rw [if_pos wraps, wraps]
    simp
  · have next := toNat_enqueue status.taskQueueLen wraps
    simp only [if_neg wraps, next]
    omega

/-- A mark changes the entry of its node only. -/
theorem markedBusy_of_ne (status : ClusterStatus) {w i : Fin 17} (other : i ≠ w) :
    markedBusy status w.val i = status i := by
  rw [markedBusy_apply, if_neg]
  rintro ⟨_, entry⟩
  exact other (Fin.ext (Int.ofNat.inj entry).symm)

theorem markedBusy_self (status : ClusterStatus) {w : Fin 17} (nonzero : w ≠ 0) :
    markedBusy status w.val w =
      { status w with taskQueueLen := (status w).taskQueueLen + 1 } := by
  have positive : w.val ≠ 0 := fun zero => nonzero (Fin.ext zero)
  rw [markedBusy_apply, if_pos ⟨positive, rfl⟩]

theorem scores_markedBusy (status : ClusterStatus) (w : Fin 17) (nonzero : w ≠ 0) (i : Fin 17) :
    scores (markedBusy status w.val) i =
      if i = w then scores status w + if (status w).taskQueueLen = 255 then 2550 else -10
      else scores status i := by
  unfold scores
  by_cases same : i = w
  · rw [if_pos same, same, markedBusy_self status nonzero, score_enqueue]
  · rw [if_neg same, markedBusy_of_ne status same]

/-- Where the queue length does not wrap, a mark lowers the score of its node by 10. -/
theorem scores_markedBusy_of_room (status : ClusterStatus) (w : Fin 17) (nonzero : w ≠ 0)
    (room : (status w).taskQueueLen ≠ 255) :
    scores (markedBusy status w.val) = lower 10 (scores status) w := by
  funext i
  rw [scores_markedBusy status w nonzero, lower, Function.update_apply, if_neg room]
  rfl

/-- The status table after a list of marks. -/
def markAll (status : ClusterStatus) (nodes : List Nat) : ClusterStatus :=
  nodes.foldl (fun status (node : Nat) => markedBusy status node) status

theorem markAll_append (status : ClusterStatus) (first second : List Nat) :
    markAll status (first ++ second) = markAll (markAll status first) second :=
  List.foldl_append

/-- A scatter call marks the workers it sends to, in order. -/
theorem scatter_clusterStatus (s : Node) (jobId : UInt32) (range : Int32) (tasks : List Dispatch) :
    (tasks.foldl Node.afterScatterSend (s.recordJob jobId range)).clusterStatus =
      markAll s.clusterStatus (tasks.map Dispatch.worker) := by
  rw [foldl_afterScatterSend, markAll, List.foldl_map]
  rfl

/-- Each mark of a node adds one task to its queue, and nothing else changes. -/
theorem markAll_apply (status : ClusterStatus) (nodes : List Nat) (i : Fin 17) :
    markAll status nodes i = { status i with
      taskQueueLen := (status i).taskQueueLen +
        if i.val ≠ 0 then UInt8.ofNat (nodes.count i.val) else 0 } := by
  induction nodes generalizing status with
  | nil => simp [markAll]
  | cons node rest ih =>
    have first : markAll status (node :: rest) i = markAll (markedBusy status node) rest i := rfl
    rw [first, ih, markedBusy_apply, List.count_cons]
    by_cases marked : i.val ≠ 0 ∧ (node : Int) = i.val
    · have same : node = i.val := Int.natCast_inj.mp marked.2
      simp [marked, same, add_comm, add_assoc]
    · rw [if_neg marked]
      by_cases nonzero : i.val ≠ 0
      · have other : ¬ node = i.val := fun same => marked ⟨nonzero, by rw [same]⟩
        simp [other]
      · simp only [nonzero, if_false]

theorem markAll_ram (status : ClusterStatus) (nodes : List Nat) (i : Fin 17) :
    (markAll status nodes i).ramFreeKb = (status i).ramFreeKb := by rw [markAll_apply]

/-- The queue lengths of the status table, added up. -/
def queued (status : ClusterStatus) : Nat := ∑ i, (status i).taskQueueLen.toNat

theorem queued_markedBusy (status : ClusterStatus) (w : Fin 17) (nonzero : w ≠ 0)
    (room : (status w).taskQueueLen ≠ 255) :
    queued (markedBusy status w.val) = queued status + 1 := by
  have entry (i : Fin 17) : (markedBusy status w.val i).taskQueueLen.toNat =
      (status i).taskQueueLen.toNat + if i = w then 1 else 0 := by
    by_cases same : i = w
    · rw [if_pos same, same, markedBusy_self status nonzero, toNat_enqueue _ room]
    · rw [if_neg same, markedBusy_of_ne status same, Nat.add_zero]
  simp only [queued, entry, Finset.sum_add_distrib, Finset.sum_ite_eq', Finset.mem_univ, if_true]

end VelumOS.Spec
