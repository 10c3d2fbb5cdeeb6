import VelumOS.Guarantees.ScatterCoverage
import VelumOS.Spec.ChunkedTasks
import VelumOS.Spec.Requests

/-!
# Old memory on the wire

Every message is a local object of 4099 octets of which a few are set, and all of them
are sent. A result sets fifteen octets, a status report seven; a Wasm request may fill
the whole payload, but `strncpy(.., 31)` never sets the last octet of the name field.
So the octets of every message depend on what its memory held before.
-/
namespace VelumOS.Guarantees.WireMemory
open VelumOS.Source VelumOS.Spec Base.Octets ScatterCoverage

/-- The messages a step hands to `send_message`. -/
def transmittedMessage : Action → Option Message
  | .sent _ msg => some msg
  | .dispatched _ task => some task.msg
  | _ => none

def transmitted (actions : List Action) : List Message := actions.filterMap transmittedMessage

/-- What the local objects held before they were filled in, by round of a loop. -/
structure LocalMemory where
  message : Nat → Message
  wasmArgs : Nat → WasmArgs

/-- The same step over other memory. -/
def withMemory (mem : LocalMemory) : Event → Event
  | .heartbeat cpu queue _ => .heartbeat cpu queue (mem.message 0)
  | .read slot input ctx =>
    .read slot input { ctx with task := { ctx.task with stack := mem.message } }
  | .spawnWasm ctx file func args =>
    .spawnWasm { ctx with wasmArgs := mem.wasmArgs, msg := mem.message } file func args
  | .distributed ctx file func start stop =>
    .distributed { ctx with wasmArgs := mem.wasmArgs, msg := mem.message } file func start stop
  | event => event

/-- Message by message, other octets. -/
def AllDiffer (first second : List Message) : Prop :=
  List.Forall₂ (fun m n => m.octets ≠ n.octets) first second

/-! ## Other memory -/

/-- An object with another octet at every place. -/
def changed {n : Nat} (b : Block UInt8 n) : Block UInt8 n :=
  ⟨b.cells.map (· + 1), by rw [List.length_map, b.size]⟩

def changedMessage (m : Message) : Message := { m with payload := changed m.payload }

def changedArgs (args : WasmArgs) : WasmArgs := { args with funcName := changed args.funcName }

theorem octets_ne {first second : Message} (different : first ≠ second) :
    first.octets ≠ second.octets := fun same => different (Message.octets_injective same)

/-- What is not overwritten shows. -/
theorem overlay_changed {n : Nat} (b : Block UInt8 n) (piece : List UInt8)
    (fits : piece.length ≤ n) (short : piece.length < n) :
    b.overlay piece fits ≠ (changed b).overlay piece fits := by
  intro same
  have cells := congrArg Block.cells same
  simp only [Block.overlay, changed, List.append_cancel_left_eq, ← List.map_drop] at cells
  have left : 0 < (b.cells.drop piece.length).length := by
    rw [List.length_drop, b.size]
    omega
  obtain ⟨octet, rest, split⟩ := List.exists_cons_of_length_pos left
  rw [split, List.map_cons] at cells
  have fixed := (List.cons.inj cells).1
  simp at fixed

theorem resultMessage_changed (old : Message) (myId : Int) (type : MsgType) (res : TaskResult) :
    resultMessage old myId type res ≠ resultMessage (changedMessage old) myId type res := by
  intro same
  have short : res.octets.length < 4096 := by simp
  exact overlay_changed old.payload res.octets short.le short (congrArg Message.payload same)

theorem statusReport_changed (s : Node) (cpu queue : Nat) (old : Message) :
    s.statusReport cpu queue old ≠ s.statusReport cpu queue (changedMessage old) := by
  intro same
  have short : (NodeStatus.octets ⟨UInt8.ofNat (cpu % 100), 100, UInt8.ofNat (queue % 10)⟩).length <
    4096 := by simp
  exact overlay_changed old.payload _ short.le short (congrArg Message.payload same)

/-- The last octet of the name field is never set. -/
theorem strncpy31_changed (field : Block UInt8 32) (text : List UInt8) :
    strncpy31 field text ≠ strncpy31 (changed field) text := by
  have bound := List.length_take_le 31 (text.takeWhile (· ≠ 0))
  have short : ((text.takeWhile (· ≠ 0)).take 31 ++
      List.replicate (31 - ((text.takeWhile (· ≠ 0)).take 31).length) 0).length < 32 := by
    rw [List.length_append, List.length_replicate]
    omega
  exact overlay_changed field _ short.le short

/-- It shows in every request. -/
theorem wasmRequest_changed {oldArgs : WasmArgs} {oldMsg msg : Message} {myNodeId : Int}
    {jobId : UInt32} {buffer : Block UInt8 2048} {fsize : Int} {func : List UInt8} {argc : Nat}
    {argBlob : List UInt8}
    (built : wasmRequest oldArgs oldMsg myNodeId jobId buffer fsize func argc argBlob = .ok msg) :
    ∃ other, wasmRequest (changedArgs oldArgs) (changedMessage oldMsg) myNodeId jobId buffer fsize
      func argc argBlob = .ok other ∧ msg.octets ≠ other.octets := by
  obtain ⟨other, again⟩ := (wasmRequest_ok_iff (changedArgs oldArgs) (changedMessage oldMsg) myNodeId
    jobId buffer fsize func argc argBlob).mpr (partsFit_of_built built)
  refine ⟨other, again, octets_ne fun same => ?_⟩
  have first := wasmArgs_of_built built
  rw [same, wasmArgs_of_built again] at first
  exact strncpy31_changed oldArgs.funcName func (congrArg WasmArgs.funcName first).symm

/-! ## Both runs of a step -/

section Task
variable (ctx : TaskContext)

/-- The built-in tasks over changed memory. -/
def changedTask : TaskContext := { ctx with stack := fun i => changedMessage (ctx.stack i) }

theorem runBatch_changed (op : TaskOp) (batch : UInt32) (rand : Rand) :
    runBatch (changedTask ctx) op batch rand = runBatch ctx op batch rand := rfl

theorem runBatches_changed (op : TaskOp) (sizes : List UInt32) (rand : Rand) :
    runBatches (changedTask ctx) op sizes rand = runBatches ctx op sizes rand := by
  induction sizes generalizing rand with
  | nil => rfl
  | cons batch rest ih => simp only [runBatches, runBatch_changed, ih]

theorem chunkMessages_changed (myId : Int) (header : TaskHeader) (round : Nat)
    (results : List (UInt32 × Int32)) :
    AllDiffer (chunkMessages ctx myId header round results)
      (chunkMessages (changedTask ctx) myId header round results) := by
  induction results generalizing round with
  | nil => exact .nil
  | cons result rest ih => exact .cons (octets_ne (resultMessage_changed _ _ _ _)) (ih (round + 1))

/-- The total work of a request does not depend on memory. -/
theorem handleTaskRequest_work (myId : Int) (payload : Payload) : ∃ work, ∀ ctx,
    handleTaskRequest ctx myId payload =
      if work > chunkSize then chunkLoop ctx myId (TaskHeader.view payload) 0 ctx.rand work
      else singleTask ctx (TaskHeader.view payload) payload >>= fun res =>
        .ok [resultMessage (ctx.stack 0) myId .taskResult res] := ⟨_, fun _ => rfl⟩

theorem handleTaskRequest_changed (myId : Int) (payload : Payload) (sent : List Message)
    (success : handleTaskRequest ctx myId payload = .ok sent) :
    ∃ others, handleTaskRequest (changedTask ctx) myId payload = .ok others ∧
      AllDiffer sent others := by
  obtain ⟨work, request⟩ := handleTaskRequest_work myId payload
  rw [request] at success ⊢
  split at success
  · next chunked =>
    rw [if_pos chunked, chunkLoop_eq, runBatches_changed]
    rw [chunkLoop_eq] at success
    cases ran : runBatches ctx (TaskHeader.view payload).opCode _ ctx.rand with
    | error fault =>
      rw [ran] at success
      cases success
    | ok results =>
      rw [ran] at success
      cases success
      rw [show (changedTask ctx).rand = ctx.rand from rfl, ran]
      exact ⟨_, rfl, chunkMessages_changed ctx myId _ 0 _⟩
  · next single =>
    rw [if_neg single]
    obtain ⟨res, computed, success⟩ := bind_success success
    cases success
    refine ⟨_, bind_of_ok computed _, ?_⟩
    exact .cons (octets_ne (resultMessage_changed _ _ _ _)) .nil

theorem handleMessage_changed (myId : Int) (status after : ClusterStatus) (msg : Message)
    (sent : List Message) (success : handleMessage ctx myId status msg = .ok (after, sent)) :
    ∃ others, handleMessage (changedTask ctx) myId status msg = .ok (after, others) ∧
      AllDiffer sent others := by
  by_cases report : msg.type = .statusReport
  · rw [handleMessage_report ctx myId status report] at success
    cases success
    exact ⟨[], handleMessage_report _ myId status report, .nil⟩
  unfold handleMessage at success ⊢
  split at success
  · next same => exact absurd same report
  · obtain ⟨replies, handled, success⟩ := bind_success success
    cases success
    obtain ⟨others, again, differ⟩ := handleTaskRequest_changed ctx myId msg.payload sent handled
    exact ⟨others, bind_of_ok again _, differ⟩
  · cases success
    exact ⟨[], rfl, .nil⟩

end Task

section Read
variable (ctx : ReadContext)

def changedRead : ReadContext := { ctx with task := changedTask ctx.task }

theorem transmitted_sent (fd : Sock) (msgs : List Message) :
    transmitted (msgs.map (.sent fd)) = msgs := by
  rw [transmitted, List.filterMap_map]
  exact List.filterMap_some

theorem executeWasm_changed (s : Node) (msg : Message) (actions : List Action)
    (success : s.executeWasm ctx msg = .ok actions) :
    ∃ others, s.executeWasm (changedRead ctx) msg = .ok others ∧
      AllDiffer (transmitted actions) (transmitted others) := by
  obtain ⟨resVal, ran, success⟩ := bind_success success
  have again : runWasmRequest (changedRead ctx) msg.payload = .ok resVal := ran
  simp only [Node.executeWasm, bind_of_ok again, bind_of_ok (replySock_ok s msg.senderId)]
  rw [bind_of_ok (replySock_ok s msg.senderId)] at success
  cases chosen : s.replyTarget msg.senderId with
  | none =>
    rw [chosen] at success
    cases success
    exact ⟨[], rfl, .nil⟩
  | some fd =>
    rw [chosen] at success
    cases success
    exact ⟨_, rfl, .cons (octets_ne (resultMessage_changed _ _ _ _)) .nil⟩

theorem forwardMessage_changed (s after : Node) (fd : Sock) (msg : Message) (actions : List Action)
    (success : s.forwardMessage ctx fd msg = .ok (after, actions)) :
    ∃ others, s.forwardMessage (changedRead ctx) fd msg = .ok (after, others) ∧
      AllDiffer (transmitted actions) (transmitted others) := by
  obtain ⟨⟨status, replies⟩, handled, success⟩ := bind_success success
  cases success
  obtain ⟨others, again, differ⟩ := handleMessage_changed ctx.task s.myNodeId s.clusterStatus status
    msg replies handled
  refine ⟨_, bind_of_ok again _, ?_⟩
  rw [transmitted_sent, transmitted_sent]
  exact differ

theorem processMessage_changed (s after : Node) (fd : Sock) (msg : Message) (actions : List Action)
    (success : s.processMessage ctx fd msg = .ok (after, actions)) :
    ∃ others, s.processMessage (changedRead ctx) fd msg = .ok (after, others) ∧
      AllDiffer (transmitted actions) (transmitted others) := by
  unfold Node.processMessage at success ⊢
  split at success
  · split at success
    · next op =>
      obtain ⟨sends, executed, success⟩ := bind_success success
      cases success
      obtain ⟨others, again, differ⟩ := executeWasm_changed ctx s msg _ executed
      rw [if_pos op]
      exact ⟨others, bind_of_ok again _, differ⟩
    · next op =>
      rw [if_neg op]
      exact forwardMessage_changed ctx s after fd msg actions success
  · cases success
    exact ⟨[], rfl, .nil⟩
  · cases success
    exact ⟨[], rfl, .nil⟩
  · exact forwardMessage_changed ctx s after fd msg actions success

end Read

theorem transmitted_append (first second : List Action) :
    transmitted (first ++ second) = transmitted first ++ transmitted second :=
  List.filterMap_append

/-- One report to each entry of a list. -/
theorem transmitted_reports (is : List (Fin 16)) (table : Fin 16 → Sock) (msg : Message) :
    transmitted (is.map fun i => .sent (table i) msg) = List.replicate is.length msg := by
  induction is with
  | nil => rfl
  | cons i rest ih => exact congrArg (msg :: ·) ih

theorem allDiffer_replicate (n : Nat) {first second : Message} (different : first ≠ second) :
    AllDiffer (List.replicate n first) (List.replicate n second) := by
  induction n with
  | zero => exact .nil
  | succ n ih => exact .cons (octets_ne different) ih

theorem heartbeat_changed (s : Node) (cpu queue : Nat) (old : Message) :
    AllDiffer (transmitted (s.heartbeat cpu queue old))
      (transmitted (s.heartbeat cpu queue (changedMessage old))) := by
  unfold Node.heartbeat
  simp only [transmitted_append, transmitted_reports, List.replicate_append_replicate]
  exact allDiffer_replicate _ (statusReport_changed s cpu queue old)

section Spawn
variable (ctx : SpawnContext)

def changedSpawn : SpawnContext :=
  { ctx with
    wasmArgs := fun i => changedArgs (ctx.wasmArgs i)
    msg := fun i => changedMessage (ctx.msg i) }

theorem velumSpawnWasm_changed (file : Option File) (func : List UInt8) (args : List (List UInt8))
    (s after : Node) (actions : List Action)
    (success : velumSpawnWasm ctx file func args s = .ok (after, actions)) :
    ∃ others, velumSpawnWasm (changedSpawn ctx) file func args s = .ok (after, others) ∧
      AllDiffer (transmitted actions) (transmitted others) := by
  unfold velumSpawnWasm at success ⊢
  split at success
  · cases success
    exact ⟨[], rfl, .nil⟩
  · next f =>
    split at success
    · next large =>
      cases success
      simp only [if_pos large]
      exact ⟨[], rfl, .nil⟩
    · next small =>
      simp only [if_neg small]
      obtain ⟨buffer, read, success⟩ := bind_success success
      rw [show (changedSpawn ctx).buffer = ctx.buffer from rfl, bind_of_ok read]
      cases chosen : findBestNode s.clusterStatus s.myNodeId with
      | none =>
        rw [chosen] at success
        cases success
        exact ⟨[], rfl, .nil⟩
      | some winner =>
        simp only [chosen] at success
        obtain ⟨msg, built, success⟩ := bind_success success
        obtain ⟨other, again, differ⟩ := wasmRequest_changed built
        simp only
        rw [show (changedSpawn ctx).rand = ctx.rand from rfl]
        cases found : s.findTarget winner with
        | none =>
          simp only [found] at success
          cases success
          exact ⟨[], bind_of_ok again _, .nil⟩
        | some target =>
          have marked := markNodeBusy_ok s.clusterStatus winner
          simp only [found, bind_of_ok marked] at success
          cases success
          exact ⟨_, (bind_of_ok again _).trans (bind_of_ok marked _), .cons differ .nil⟩

/-- The loop, over changed memory and from a state with the same tables. -/
theorem scatterLoop_changed (job : Scatter) (i : Nat) (workers : List Nat) (currentStart : Int32)
    (s t last : Node) (actions : List Action) (same : SameTables s t)
    (success : scatterLoop job i workers currentStart s = .ok (last, actions)) :
    ∃ end_ others, scatterLoop { job with ctx := changedSpawn job.ctx } i workers currentStart t =
      .ok (end_, others) ∧ AllDiffer (transmitted actions) (transmitted others) := by
  induction workers generalizing i currentStart s t last actions with
  | nil =>
    cases success
    exact ⟨t, [], rfl, .nil⟩
  | cons worker rest ih =>
    obtain ⟨msg, built, success⟩ := bind_success success
    obtain ⟨⟨between, first⟩, sent, success⟩ := bind_success success
    obtain ⟨⟨deeper, later⟩, loop, success⟩ := bind_success success
    cases success
    obtain ⟨other, again, differ⟩ := wasmRequest_changed built
    rw [← same.myNodeId] at again
    have target := same.findTarget worker
    cases found : s.findTarget worker with
    | none =>
      have sentAgain := sendScattered_of_none other (target.trans found)
      rw [sendScattered_of_none msg found] at sent
      cases sent
      obtain ⟨end_, others, loopAgain, rest⟩ := ih _ _ s t _ _ same loop
      refine ⟨end_, others, ?_, rest⟩
      rw [scatterLoop]
      apply (bind_of_ok again _).trans
      apply (bind_of_ok sentAgain _).trans
      exact bind_of_ok loopAgain _
    | some fd =>
      have sentAgain := sendScattered_of_target other (target.trans found)
      have sameAfter : SameTables (s.afterScatterSend ⟨worker, fd, msg⟩)
          (t.afterScatterSend ⟨worker, fd, other⟩) :=
        ⟨same.myNodeId, same.peerSockets, same.inboundSockets, same.socketToId⟩
      rw [sendScattered_of_target msg found] at sent
      cases sent
      obtain ⟨end_, others, loopAgain, rest⟩ := ih _ _ _ _ _ _ sameAfter loop
      refine ⟨end_, .dispatched .distributed ⟨worker, fd, other⟩ :: others, ?_, .cons differ rest⟩
      rw [scatterLoop]
      apply (bind_of_ok again _).trans
      apply (bind_of_ok sentAgain _).trans
      exact bind_of_ok loopAgain _

theorem distributed_changed (file : Option File) (func : List UInt8) (start stop : Int32)
    (s after : Node) (actions : List Action)
    (success : velumSpawnWasmDistributed ctx file func start stop s = .ok (after, actions)) :
    ∃ end_ others, velumSpawnWasmDistributed (changedSpawn ctx) file func start stop s =
      .ok (end_, others) ∧ AllDiffer (transmitted actions) (transmitted others) := by
  unfold velumSpawnWasmDistributed at success ⊢
  split at success
  · cases success
    exact ⟨s, [], rfl, .nil⟩
  · next f =>
    split at success
    · next large =>
      cases success
      simp only [if_pos large]
      exact ⟨s, [], rfl, .nil⟩
    · next small =>
      simp only [if_neg small, ite_self] at success ⊢
      obtain ⟨buffer, read, success⟩ := bind_success success
      rw [show (changedSpawn ctx).buffer = ctx.buffer from rfl, bind_of_ok read]
      split at success
      · next alone =>
        cases success
        simp only [if_pos alone]
        exact ⟨s, [], rfl, .nil⟩
      · next connected =>
        simp only [if_neg connected]
        obtain ⟨⟨last, later⟩, loop, success⟩ := bind_success success
        cases success
        obtain ⟨end_, others, again, differ⟩ := scatterLoop_changed _ 0 _ start _ _ _ _ (.refl _) loop
        exact ⟨end_, _ :: others, bind_of_ok again _, differ⟩

end Spawn

/-- The memory that differs everywhere from the one an event carries. -/
def otherMemory : Event → LocalMemory
  | .heartbeat _ _ old => ⟨fun _ => changedMessage old, SpawnContext.zeroed.wasmArgs⟩
  | .read _ _ ctx => ⟨(changedTask ctx.task).stack, SpawnContext.zeroed.wasmArgs⟩
  | .spawnWasm ctx _ _ _ => ⟨(changedSpawn ctx).msg, (changedSpawn ctx).wasmArgs⟩
  | .distributed ctx _ _ _ _ => ⟨(changedSpawn ctx).msg, (changedSpawn ctx).wasmArgs⟩
  | _ => ⟨SpawnContext.zeroed.msg, SpawnContext.zeroed.wasmArgs⟩

theorem transmitted_beacon (s after : Node) (len : Int) (b : Beacon) (sock : Sock)
    (actions : List Action) (success : s.receiveBeacon len b sock = .ok (after, actions)) :
    transmitted actions = [] := by
  rcases receiveBeacon_cases success with ignored | ⟨i, _, _, _, opened⟩
  · cases ignored
    rfl
  · cases opened
    rfl

theorem transmitted_accept (s : Node) (ns : Sock) : transmitted (s.acceptConnection ns).2 = [] := by
  unfold Node.acceptConnection
  split
  · simp only
    split <;> rfl
  · rfl

theorem transmitted_close (s : Node) (slot : Slot) : transmitted (s.closeConnection slot).2 = [] := by
  rw [closeConnection_actions]
  split <;> rfl

theorem handleSock_changed (ctx : ReadContext) (s after : Node) (slot : Slot) (input : ReadResult)
    (actions : List Action) (success : s.handleSock ctx slot input = .ok (after, actions)) :
    ∃ others, s.handleSock (changedRead ctx) slot input = .ok (after, others) ∧
      AllDiffer (transmitted actions) (transmitted others) := by
  by_cases live : 0 < (s.sock slot).val
  · cases input with
    | failed =>
      refine ⟨actions, success, ?_⟩
      simp only [Node.handleSock, if_pos live, dropConnection_ok] at success
      have sent : (s.closeConnection slot).2 = actions := congrArg Prod.snd (Except.ok.inj success)
      rw [← sent, transmitted_close]
      exact .nil
    | data piece nonempty fits =>
      obtain ⟨sends, rfl, processed⟩ := handleSock_data ctx s after slot piece nonempty fits actions
        live success
      obtain ⟨others, again, differ⟩ := processMessage_changed ctx _ after _ _ sends processed
      refine ⟨.received slot (s.sock slot) (s.messageRead piece fits) :: others, ?_, differ⟩
      simp only [Node.handleSock, if_pos live]
      exact bind_of_ok again _
  · refine ⟨actions, ?_, ?_⟩
    · rw [← success]
      simp only [Node.handleSock, if_neg live]
    · simp only [Node.handleSock, if_neg live] at success
      cases success
      exact .nil

/-- Every step that completes does so over other memory as well, and then every message
it sends has other octets. -/
theorem step_changed (s after : Node) (event : Event) (actions : List Action)
    (success : s.step event = .ok (after, actions)) :
    ∃ end_ others, s.step (withMemory (otherMemory event) event) = .ok (end_, others) ∧
      AllDiffer (transmitted actions) (transmitted others) := by
  cases event with
  | heartbeat cpu queue old =>
    cases success
    exact ⟨s, _, rfl, heartbeat_changed s cpu queue old⟩
  | beacon len b sock =>
    refine ⟨after, actions, success, ?_⟩
    rw [transmitted_beacon s after len b sock actions success]
    exact .nil
  | accept ns =>
    refine ⟨after, actions, success, ?_⟩
    have sent : (s.acceptConnection ns).2 = actions := congrArg Prod.snd (Except.ok.inj success)
    rw [← sent, transmitted_accept]
    exact .nil
  | read slot input ctx =>
    by_cases serviced : slot.serviced = true
    · simp only [Node.step, if_pos serviced] at success
      obtain ⟨others, again, differ⟩ := handleSock_changed ctx s after slot input actions success
      refine ⟨after, others, ?_, differ⟩
      simp only [withMemory, Node.step, if_pos serviced]
      exact again
    · simp only [Node.step, if_neg serviced] at success
      cases success
      refine ⟨s, [], ?_, .nil⟩
      simp only [withMemory, Node.step, if_neg serviced]
  | spawnWasm ctx file func args =>
    obtain ⟨others, again, differ⟩ := velumSpawnWasm_changed ctx file func args s after actions
      success
    exact ⟨after, others, again, differ⟩
  | distributed ctx file func start stop =>
    exact distributed_changed ctx file func start stop s after actions success

/-- The octets sent do not depend on what the local objects held. -/
def WireClean (s : Node) (event : Event) : Prop :=
  ∀ mem after actions end_ others, s.step event = .ok (after, actions) →
    s.step (withMemory mem event) = .ok (end_, others) →
      (transmitted actions).map Message.octets = (transmitted others).map Message.octets

theorem not_wireClean {s after : Node} {event : Event} {actions : List Action}
    (success : s.step event = .ok (after, actions)) (sends : transmitted actions ≠ []) :
    ¬ WireClean s event := by
  intro clean
  obtain ⟨end_, others, again, differ⟩ := step_changed s after event actions success
  have same := clean _ _ _ _ _ success again
  obtain ⟨m, rest, first⟩ := List.exists_cons_of_ne_nil sends
  rw [first] at differ same
  obtain ⟨other, later, different, _, split⟩ := List.forall₂_cons_left_iff.mp differ
  rw [split, List.map_cons, List.map_cons] at same
  exact different (List.cons.inj same).1

/-- For every state, every step that sends something and every message that it sends
there is other memory over which the same step sends other octets in its place. -/
theorem wire_never_clean (s after : Node) (event : Event) (actions : List Action)
    (success : s.step event = .ok (after, actions)) (sends : transmitted actions ≠ []) :
    ¬ WireClean s event ∧ ∃ mem end_ others,
      s.step (withMemory mem event) = .ok (end_, others) ∧
        AllDiffer (transmitted actions) (transmitted others) := by
  obtain ⟨end_, others, again, differ⟩ := step_changed s after event actions success
  exact ⟨not_wireClean success sends, _, end_, others, again, differ⟩

/-- The scattered request to node 2. -/
theorem wire_never_clean_scatter :
    ¬ WireClean connectedTwo (.distributed .zeroed (some ⟨(0 : Nat), []⟩) [102] 0 10) := by
  obtain ⟨task, _, _, scatter⟩ := step_scatter_two
  exact (wire_never_clean connectedTwo _ _ _ scatter.2 (by
    simp [transmitted, transmittedMessage])).1

/-- The status report to node 2. -/
theorem heartbeat_not_clean : ¬ ∀ s event, WireClean s event := by
  intro always
  have sends : transmitted (connectedTwo.heartbeat 7 3 .zeroed) ≠ [] := by
    unfold Node.heartbeat
    rw [transmitted_append, transmitted_reports, transmitted_reports,
      List.replicate_append_replicate, ne_eq, List.replicate_eq_nil_iff]
    decide
  have done : connectedTwo.step (.heartbeat 7 3 .zeroed) =
      .ok (connectedTwo, connectedTwo.heartbeat 7 3 .zeroed) := rfl
  exact not_wireClean done sends (always connectedTwo _)

end VelumOS.Guarantees.WireMemory
