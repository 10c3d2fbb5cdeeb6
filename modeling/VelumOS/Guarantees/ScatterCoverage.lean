import VelumOS.Guarantees.WireRoundTrip
import VelumOS.Spec.Connections
import VelumOS.Spec.Requests
import VelumOS.Base.IntervalChain

/-!
# Scatter covers the range exactly once

The sub-ranges of `velum_spawn_wasm_distributed` are computed by a cursor over
truncated division, with the remainder on the last worker. `subRanges` is that
cursor alone, in machine words; `subRanges_chain` reads it as a chain of intervals
over the integers. `scatterLoop_sends` ties the messages to it: no listed worker is
skipped, since the second lookup finds a target for each of them.
-/
namespace VelumOS.Guarantees.ScatterCoverage
open VelumOS.Source VelumOS.Spec Base.Octets Base.CString Base.IntervalChain WireRoundTrip

/-- The sub-ranges of the last `n` workers from a cursor on. -/
def subRanges (chunkSize remainder : Int32) : Nat → Int32 → List (Int32 × Int32)
  | 0, _ => []
  | n + 1, currentStart =>
    let myEnd := currentStart + (chunkSize + if n = 0 then remainder else 0)
    (currentStart, myEnd) :: subRanges chunkSize remainder n myEnd

/-- A sub-range as integers. -/
def asInts (range : Int32 × Int32) : Int × Int := (range.1.toInt, range.2.toInt)

/-- A dispatched message is an `EXECUTE_WASM` request of the job whose two decoded
arguments are the sub-range. -/
def Carries (jobId : UInt32) (task : Dispatch) (range : Int32 × Int32) : Prop :=
  task.msg.type = .taskRequest ∧ TaskHeader.view task.msg.payload = ⟨.executeWasm, jobId⟩ ∧
    decodedArgs task.msg.payload = .ok [range.1, range.2]

theorem toInt_add_of_fits (a b : Int32) (low : -2 ^ 31 ≤ a.toInt + b.toInt)
    (high : a.toInt + b.toInt < 2 ^ 31) : (a + b).toInt = a.toInt + b.toInt := by
  rw [Int32.toInt_add]
  exact Int.bmod_eq_of_le (by omega) (by omega)

theorem toInt_sub_of_fits (a b : Int32) (low : -2 ^ 31 ≤ a.toInt - b.toInt)
    (high : a.toInt - b.toInt < 2 ^ 31) : (a - b).toInt = a.toInt - b.toInt := by
  rw [Int32.toInt_sub]
  exact Int.bmod_eq_of_le (by omega) (by omega)

/-- What `(uint32_t)(end - start)` holds. -/
theorem toNat_toUInt32_sub (start stop : Int32) :
    ((stop - start).toUInt32.toNat : Int) = (stop.toInt - start.toInt) % 2 ^ 32 := by
  have wrapped : (stop - start).toInt = (stop.toInt - start.toInt).bmod (2 ^ 32) :=
    Int32.toInt_sub ..
  have word : (stop - start).toInt = ((stop - start).toUInt32.toNat : Int).bmod (2 ^ 32) :=
    BitVec.toInt_eq_toNat_bmod _
  have bound := (stop - start).toUInt32.toNat_lt
  rw [Int.bmod] at wrapped word
  split at wrapped <;> split at word <;> omega

@[simp] theorem subRanges_length (chunkSize remainder : Int32) (n : Nat) (currentStart : Int32) :
    (subRanges chunkSize remainder n currentStart).length = n := by
  induction n generalizing currentStart with
  | zero => rfl
  | succ n ih => simp [subRanges, ih]

/-- What is ahead of the cursor with `n` workers left: their chunks and, unless there are
none, the remainder. -/
def Ahead (chunkSize remainder stop : Int32) (n : Nat) (currentStart : Int32) : Prop :=
  currentStart.toInt + n * chunkSize.toInt + (if n = 0 then 0 else remainder.toInt) = stop.toInt

/-- One round: neither addition overflows, the cursor does not move back, and it moves by
what the round has taken. -/
theorem round_exact (chunkSize remainder stop : Int32) (n : Nat) (currentStart : Int32)
    (chunk : 0 ≤ chunkSize.toInt) (left : 0 ≤ remainder.toInt)
    (both : chunkSize.toInt + remainder.toInt < 2 ^ 31)
    (ahead : Ahead chunkSize remainder stop (n + 1) currentStart) :
    (currentStart + (chunkSize + if n = 0 then remainder else 0)).toInt =
      currentStart.toInt + (chunkSize + if n = 0 then remainder else 0).toInt ∧
    0 ≤ (chunkSize + if n = 0 then remainder else 0).toInt ∧
    Ahead chunkSize remainder stop n
      (currentStart + (chunkSize + if n = 0 then remainder else 0)) := by
  have top := stop.toInt_lt
  have bottom := currentStart.le_toInt
  rw [Ahead, if_neg (Nat.succ_ne_zero n), Int.natCast_succ, Int.add_mul, Int.one_mul] at ahead
  have rest : 0 ≤ (n : Int) * chunkSize.toInt := Int.mul_nonneg (by omega) chunk
  have myChunk : (chunkSize + if n = 0 then remainder else 0).toInt =
      chunkSize.toInt + if n = 0 then remainder.toInt else 0 := by
    rw [toInt_add_of_fits]
    · split <;> rfl
    all_goals split <;> simp <;> omega
  have myEnd : (currentStart + (chunkSize + if n = 0 then remainder else 0)).toInt =
      currentStart.toInt + (chunkSize + if n = 0 then remainder else 0).toInt := by
    rw [toInt_add_of_fits]
    all_goals rw [myChunk]; split <;> omega
  refine ⟨myEnd, ?_, ?_⟩
  · rw [myChunk]
    split <;> omega
  · rw [Ahead, myEnd, myChunk]
    split
    · next last => simp [last] at ahead ⊢; omega
    · omega

/-- Whatever of the range is ahead of the cursor is what the remaining workers
get; no addition overflows on the way. -/
theorem subRanges_chain (chunkSize remainder stop : Int32) (n : Nat) (currentStart : Int32)
    (chunk : 0 ≤ chunkSize.toInt) (left : 0 ≤ remainder.toInt)
    (both : chunkSize.toInt + remainder.toInt < 2 ^ 31)
    (ahead : Ahead chunkSize remainder stop n currentStart) :
    Chain currentStart.toInt stop.toInt
      ((subRanges chunkSize remainder n currentStart).map asInts) := by
  induction n generalizing currentStart with
  | zero =>
    have same : currentStart.toInt = stop.toInt := by simpa [Ahead] using ahead
    rw [same]
    exact .nil _
  | succ n ih =>
    obtain ⟨myEnd, forward, rest⟩ :=
      round_exact chunkSize remainder stop n currentStart chunk left both ahead
    refine .cons ?_ (ih _ rest)
    rw [myEnd]
    omega

/-- A loop over workers that all have a target sends each of them one request, in
order, with the sub-range of the cursor. -/
theorem scatterLoop_sends (job : Scatter) (size : Nat) (small : size ≤ 2000)
    (sized : job.fsize = size) (i : Nat) (workers : List Nat) (currentStart : Int32) (s : Node)
    (reachable : ∀ worker ∈ workers, (s.findTarget worker).isSome) :
    ∃ tasks : List Dispatch,
      scatterLoop job i workers currentStart s =
        .ok (tasks.foldl Node.afterScatterSend s, tasks.map (.dispatched .distributed)) ∧
      tasks.map Dispatch.worker = workers ∧
      (∀ task ∈ tasks, s.findTarget task.worker = some task.fd) ∧
      List.Forall₂ (Carries job.jobId) tasks
        (subRanges job.chunkSize job.remainder workers.length currentStart) := by
  induction workers generalizing i currentStart s with
  | nil => exact ⟨[], rfl, rfl, by simp, .nil⟩
  | cons worker rest ih =>
    obtain ⟨myEnd, sum⟩ : ∃ myEnd, currentStart +
        (job.chunkSize + if rest.length = 0 then job.remainder else 0) = myEnd := ⟨_, rfl⟩
    have loopSum : currentStart + (job.chunkSize + if rest.isEmpty then job.remainder else 0) =
        myEnd := by simp [← sum]
    have blob := rangeArgs_length_le currentStart myEnd
    obtain ⟨target, found⟩ := Option.isSome_iff_exists.mp (reachable worker (by simp))
    obtain ⟨msg, built, _, type, header, _, _, decoded⟩ := decodedArgs_wasmRequest
      (job.ctx.wasmArgs i) (job.ctx.msg i) s.myNodeId job.jobId job.buffer size job.func
      [sprintfInt currentStart, sprintfInt myEnd] small (by omega)
      (rangeArgs_clean currentStart myEnd)
    have sent := sendScattered_of_target msg found
    have same := afterScatterSend_sameTables s ⟨worker, target, msg⟩
    obtain ⟨tasks, loop, listed, targets, carried⟩ := ih (i + 1) myEnd
      (s.afterScatterSend ⟨worker, target, msg⟩) (by
        intro other member
        rw [same.findTarget]
        exact reachable other (List.mem_cons_of_mem _ member))
    refine ⟨⟨worker, target, msg⟩ :: tasks, ?_, by simp [listed], ?_, ?_⟩
    · simp only [scatterLoop, loopSum, Scatter.request, sized]
      apply (bind_of_ok built _).trans
      apply (bind_of_ok sent _).trans
      exact bind_of_ok loop _
    · intro task member
      rcases List.mem_cons.mp member with rfl | inside
      · exact found
      · rw [← targets task inside, same.findTarget]
    · rw [List.length_cons, subRanges, sum]
      refine .cons ⟨type, header, ?_⟩ carried
      rw [decoded]
      simp

/-- Quotient and remainder of the range put the end of the last sub-range at the
end of the range. -/
theorem split_exact (start stop : Int32) (n : Nat) (positive : 0 < n) (few : n < 2 ^ 31)
    (ordered : start.toInt ≤ stop.toInt) (representable : stop.toInt - start.toInt < 2 ^ 31) :
    0 ≤ ((stop - start) / Int32.ofNat n).toInt ∧ 0 ≤ ((stop - start) % Int32.ofNat n).toInt ∧
      ((stop - start) / Int32.ofNat n).toInt + ((stop - start) % Int32.ofNat n).toInt < 2 ^ 31 ∧
      Ahead ((stop - start) / Int32.ofNat n) ((stop - start) % Int32.ofNat n) stop n start := by
  have range := toInt_sub_of_fits stop start (by omega) representable
  have count : (Int32.ofNat n).toInt = n := Int32.toInt_ofNat_of_lt (by omega)
  have notMinusOne : Int32.ofNat n ≠ -1 := by
    intro same
    rw [same, show (-1 : Int32).toInt = -1 from by decide] at count
    omega
  rw [Ahead, Int32.toInt_div_of_ne_right _ _ notMinusOne, Int32.toInt_mod, count, range,
    Int.tdiv_eq_ediv_of_nonneg (by omega), Int.tmod_eq_emod_of_nonneg (by omega),
    if_neg (by omega : n ≠ 0)]
  have whole := Int.mul_ediv_add_emod (stop.toInt - start.toInt) n
  have quotient : 0 ≤ (stop.toInt - start.toInt) / n := Int.ediv_nonneg (by omega) (by omega)
  have once : 1 * ((stop.toInt - start.toInt) / n) ≤ n * ((stop.toInt - start.toInt) / n) :=
    Int.mul_le_mul_of_nonneg_right (by omega) quotient
  exact ⟨quotient, Int.emod_nonneg _ (by omega), by omega, by omega⟩

/-- A call with a readable file of at most 2000 octets and at least one worker
sends one request to each listed worker, in order. -/
theorem distributed_sends (ctx : SpawnContext) (contents func : List UInt8) (start stop : Int32)
    (s : Node) (small : contents.length ≤ 2000) (connected : s.findAllWorkers s.myNodeId ≠ []) :
    ∃ tasks : List Dispatch,
      velumSpawnWasmDistributed ctx (some ⟨contents.length, contents⟩) func start stop s =
        .ok (tasks.foldl Node.afterScatterSend
            (s.recordJob (UInt32.ofNat (ctx.rand 0 % 9999)) (stop - start)),
          .recorded (UInt32.ofNat (ctx.rand 0 % 9999)) :: tasks.map (.dispatched .distributed)) ∧
      tasks.map Dispatch.worker = s.findAllWorkers s.myNodeId ∧
      (∀ task ∈ tasks, s.findTarget task.worker = some task.fd) ∧
      List.Forall₂ (Carries (UInt32.ofNat (ctx.rand 0 % 9999))) tasks (subRanges
        ((stop - start) / Int32.ofNat (s.findAllWorkers s.myNodeId).length)
        ((stop - start) % Int32.ofNat (s.findAllWorkers s.myNodeId).length)
        (s.findAllWorkers s.myNodeId).length start) := by
  obtain ⟨buffer, read, _⟩ := fread_contents ctx.buffer contents small
  have nonempty : (s.findAllWorkers s.myNodeId).isEmpty = false := by simpa using connected
  have size : ¬ (contents.length : Int) > 2000 := by omega
  let jobId := UInt32.ofNat (ctx.rand 0 % 9999)
  let numWorkers := Int32.ofNat (s.findAllWorkers s.myNodeId).length
  obtain ⟨tasks, loop, listed, targets, carried⟩ := scatterLoop_sends
    ⟨ctx, jobId, buffer, contents.length, func, (stop - start) / numWorkers,
      (stop - start) % numWorkers⟩ contents.length small rfl 0 (s.findAllWorkers s.myNodeId) start
    (s.recordJob jobId (stop - start)) (by
      intro worker member
      obtain ⟨_, _, slot, leads⟩ := (s.mem_findAllWorkers s.myNodeId worker).mp member
      exact s.findTarget_isSome worker slot leads)
  refine ⟨tasks, ?_, listed, targets, carried⟩
  simp only [velumSpawnWasmDistributed, if_neg size]
  apply (bind_of_ok read _).trans
  simp only [nonempty, Bool.false_eq_true, if_false]
  exact bind_of_ok loop _

/-- With an empty file and one listed worker the call records its job and sends one
request of it. -/
theorem distributed_single (ctx : SpawnContext) (func : List UInt8) (start stop : Int32) (s : Node)
    (worker : Nat) (workers : s.findAllWorkers s.myNodeId = [worker]) :
    ∃ fd msg, s.findTarget worker = some fd ∧ RequestFor s.myNodeId (jobIdOf ctx) func msg ∧
      velumSpawnWasmDistributed ctx (some ⟨(0 : Nat), []⟩) func start stop s =
        .ok ((s.recordJob (jobIdOf ctx) (stop - start)).afterScatterSend ⟨worker, fd, msg⟩,
          [.recorded (jobIdOf ctx), .dispatched .distributed ⟨worker, fd, msg⟩]) := by
  have connected : s.findAllWorkers s.myNodeId ≠ [] := by
    rw [workers]
    exact List.cons_ne_nil worker []
  obtain ⟨tasks, sent, listed, targets, _⟩ := distributed_sends ctx [] func start stop s
    (by decide) connected
  obtain ⟨again, same, _, requests, _⟩ := distributed_requests sent ⟨⟨_, rfl, by decide⟩, connected⟩
  rw [workers] at listed
  obtain ⟨⟨_, fd, msg⟩, rest, rfl, rfl, none⟩ := List.map_eq_cons_iff.mp listed
  rw [List.map_eq_nil_iff] at none
  subst none
  obtain ⟨other, rfl, dispatched⟩ := List.map_eq_singleton_iff.mp (List.cons.inj same).2.symm
  cases dispatched
  exact ⟨fd, msg, targets _ List.mem_cons_self, requests _ List.mem_cons_self, sent⟩

/-- The call as a step of a node that is connected to node 2 only. -/
theorem step_scatter_two : ∃ task : Dispatch, task.worker = 2 ∧
    TaskHeader.view task.msg.payload = ⟨.executeWasm, 0⟩ ∧
    connectedTwo.Step (.distributed .zeroed (some ⟨(0 : Nat), []⟩) [102] 0 10)
      [.recorded 0, .dispatched .distributed task]
      ((connectedTwo.recordJob 0 10).afterScatterSend task) := by
  have workers : connectedTwo.findAllWorkers connectedTwo.myNodeId = [2] := by decide
  obtain ⟨fd, msg, _, request, sent⟩ := distributed_single .zeroed [102] 0 10 connectedTwo 2 workers
  exact ⟨⟨2, fd, msg⟩, rfl, request.header, trivial, sent⟩

/-- For a readable file of at most 2000 octets, a range whose length is an `int`
and tables with at least one worker, the call sends one request to each listed
worker, in order and on a connection that leads to it. The sub-ranges they carry
are consecutive from `start` to `stop`: every integer of the range is in exactly
one, and an interval-additive function sums over them to its value on the range. -/
theorem scatter_covers_range (ctx : SpawnContext) (contents func : List UInt8)
    (start stop : Int32) (s : Node) (small : contents.length ≤ 2000)
    (ordered : start.toInt ≤ stop.toInt) (representable : stop.toInt - start.toInt < 2 ^ 31)
    (connected : s.findAllWorkers s.myNodeId ≠ []) :
    ∃ (after : Node) (jobId : UInt32) (tasks : List Dispatch) (ranges : List (Int32 × Int32)),
      velumSpawnWasmDistributed ctx (some ⟨contents.length, contents⟩) func start stop s =
        .ok (after, .recorded jobId :: tasks.map (.dispatched .distributed)) ∧
      tasks.map Dispatch.worker = s.findAllWorkers s.myNodeId ∧
      (∀ task ∈ tasks, ∃ slot, s.Leads slot task.worker ∧ s.sock slot = task.fd) ∧
      List.Forall₂ (Carries jobId) tasks ranges ∧
      Chain start.toInt stop.toInt (ranges.map asInts) ∧
      (∀ x, start.toInt ≤ x → x < stop.toInt →
        (ranges.map asInts).countP (fun range => Inside x range) = 1) ∧
      ∀ (M : Type) [AddMonoid M] (f : Int → Int → M),
        (∀ a b c, a ≤ b → b ≤ c → f a c = f a b + f b c) →
        ((ranges.map asInts).map fun range => f range.1 range.2).sum =
          f start.toInt stop.toInt := by
  have positive : 0 < (s.findAllWorkers s.myNodeId).length := List.length_pos_iff.mpr connected
  obtain ⟨tasks, sent, listed, targets, carried⟩ := distributed_sends ctx contents func start stop s
    small connected
  have few := s.findAllWorkers_length_le s.myNodeId
  obtain ⟨chunk, left, both, ahead⟩ := split_exact start stop _ positive (by omega) ordered
    representable
  have chain := subRanges_chain _ _ stop _ start chunk left both ahead
  refine ⟨_, _, tasks, _, sent, listed, ?_, carried, chain, ?_, ?_⟩
  · intro task member
    exact s.findTarget_leads task.worker task.fd (targets task member)
  · intro x low high
    rw [chain.count_inside]
    exact if_pos ⟨low, high⟩
  · intro M _ f additive
    refine chain.sum_additive ?_ f additive
    rw [ne_eq, List.map_eq_nil_iff, ← List.length_eq_zero_iff, subRanges_length]
    omega

/-- A node with outgoing connections to the nodes 1 and 2. -/
def twoPeers : Node :=
  ((Node.boot 0 .zeroed).setSock (.peer 1) fd5).setSock (.peer 2) fd6

theorem scatter_covers_two_peers :
    ∃ (after : Node) (jobId : UInt32) (tasks : List Dispatch) (ranges : List (Int32 × Int32)),
      velumSpawnWasmDistributed .zeroed (some ⟨(0 : Nat), []⟩) [102] (-3) 4 twoPeers =
        .ok (after, .recorded jobId :: tasks.map (.dispatched .distributed)) ∧
      tasks.map Dispatch.worker = [1, 2] ∧ List.Forall₂ (Carries jobId) tasks ranges ∧
      Chain (-3) 4 (ranges.map asInts) := by
  have workers : twoPeers.findAllWorkers twoPeers.myNodeId = [1, 2] := by decide
  obtain ⟨after, jobId, tasks, ranges, sent, listed, _, carried, chain, _⟩ := scatter_covers_range
    .zeroed [] [102] (-3) 4 twoPeers (by decide) (by decide) (by decide) (by rw [workers]; decide)
  exact ⟨after, jobId, tasks, ranges, sent, listed.trans workers, carried, chain⟩

end VelumOS.Guarantees.ScatterCoverage
