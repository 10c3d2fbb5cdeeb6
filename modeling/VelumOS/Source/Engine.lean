import VelumOS.Source.Spawn
import VelumOS.Source.Sandbox
import VelumOS.Base.Runs

/-!
# Engine

`velum_engine_loop` of `src/velum_core.cpp`, one definition for each branch of its
round: heartbeat, beacon, accept and `handle_sock`. A round of the engine runs some
of these branches in a fixed order and an API call falls between any two of them,
so a run of the node is a sequence of such events. What the operating system and
the network contribute is in the event.
-/
namespace VelumOS.Source
open Base.Octets Base.Runs

structure Beacon where
  magic : UInt32
  nodeId : Int
  tcpPort : Int

/-- What `read(sock, &msg_buffer, sizeof(Message))` returned. -/
inductive ReadResult where
  | failed
  | data (piece : List UInt8) (nonempty : 0 < piece.length) (fits : piece.length ≤ 4099)

/-- What the handling of one read finds: the interpreter, the heap behind
`int_args` and the context of the built-in tasks. -/
structure ReadContext where
  wasm3 : Wasm3
  beyond : UInt32
  task : TaskContext

/-- Zeroed memory and an interpreter that refuses every module. -/
def ReadContext.refusing : ReadContext :=
  ⟨.refusing, 0, ⟨fun _ => .zeroed, fun _ => 0, fun _ _ => false⟩⟩

/-- The part of `handle_sock` that decodes an `EXECUTE_WASM` request and runs it.
The log line prints the function name first. -/
def runWasmRequest (ctx : ReadContext) (payload : Payload) : Except Fault Int32 := do
  let args := WasmArgs.view payload
  let _ ← readCString .funcName args.funcName.cells
  executeWasmInSandbox ctx.wasm3 ctx.beyond (payload.cells.drop 49) args.binarySize args.funcName
    args.argc (payload.cells.drop (49 + args.binarySize.toNat))

namespace Node

/-- The choice of `reply_sock`; `none` is -1. -/
def replySock (s : Node) (senderId : UInt16) : Except Fault (Option Sock) :=
  if senderId.toNat < 16 then do
    let fd ← readEntry s.peerSockets senderId.toNat
    .ok (if 0 < fd.val then some fd else none)
  else .ok none

/-- `EXECUTE_WASM`: run the request and reply on the outgoing connection, if any. -/
def executeWasm (ctx : ReadContext) (s : Node) (msg : Message) : Except Fault (List Action) := do
  let resVal ← runWasmRequest ctx msg.payload
  let reply := resultMessage (ctx.task.stack 0) s.myNodeId .taskResult
    { jobId := (TaskHeader.view msg.payload).jobId, value := resVal, count := 1 }
  match ← s.replySock msg.senderId with
  | none => .ok []
  | some fd => .ok [.sent fd reply]

/-- The call of `handle_message` on the message just read from `fd`. -/
def forwardMessage (ctx : ReadContext) (s : Node) (fd : Sock) (msg : Message) :
    Except Fault (Node × List Action) := do
  let (status, replies) ← handleMessage ctx.task s.myNodeId s.clusterStatus msg
  .ok ({ s with clusterStatus := status }, replies.map (.sent fd))

/-- The dispatch of `handle_sock` on type and op code. A result or progress message
is only logged. -/
def processMessage (ctx : ReadContext) (s : Node) (fd : Sock) (msg : Message) :
    Except Fault (Node × List Action) :=
  match msg.type with
  | .taskRequest =>
    if (TaskHeader.view msg.payload).opCode = .executeWasm then do
      let actions ← s.executeWasm ctx msg
      .ok (s, actions)
    else s.forwardMessage ctx fd msg
  | .taskResult | .taskProgress => .ok (s, [])
  | _ => s.forwardMessage ctx fd msg

/-- `valread <= 0` in `handle_sock`. The table entry is zeroed before it is used as
an index, so it is `socket_to_id[0]` that becomes -1. -/
def dropConnection (s : Node) (slot : Slot) : Except Fault (Node × List Action) :=
  let fd := s.sock slot
  let deadNode := s.socketToId fd
  let zeroed := s.setSock slot .free
  let cleared := { zeroed with
    socketToId := Function.update zeroed.socketToId (zeroed.sock slot) (-1) }
  if deadNode ≠ -1 then do
    let status ← handleDisconnect cleared.clusterStatus deadNode
    .ok ({ cleared with
        clusterStatus := status
        pendingTasks := Function.update cleared.pendingTasks deadNode none },
      [.closed fd, .died deadNode])
  else .ok (cleared, [.closed fd])

/-- The buffer after a read stored `piece` over its front, as a message. -/
def messageRead (s : Node) (piece : List UInt8) (fits : piece.length ≤ 4099) : Message :=
  .view (s.msgBuffer.octets.overlay piece fits)

/-- The state when the dispatch of a message read from `fd` begins. -/
def afterRead (s : Node) (fd : Sock) (msg : Message) : Node :=
  { s with
    msgBuffer := msg
    socketToId := Function.update s.socketToId fd (msg.senderId.toNat : Int) }

/-- `handle_sock` on a table entry that `select` reported readable. -/
def handleSock (ctx : ReadContext) (s : Node) (slot : Slot) (input : ReadResult) :
    Except Fault (Node × List Action) :=
  if 0 < (s.sock slot).val then
    match input with
    | .failed => s.dropConnection slot
    | .data piece _ fits => do
      let msg := s.messageRead piece fits
      let (after, actions) ← (s.afterRead (s.sock slot) msg).processMessage ctx (s.sock slot) msg
      .ok (after, .received slot (s.sock slot) msg :: actions)
  else .ok (s, [])

/-- The accept branch: the first free inbound entry takes the descriptor, whatever
`accept` returned. -/
def acceptConnection (s : Node) (ns : Sock) : Node × List Action :=
  match (List.finRange 16).find? fun i => (s.inboundSockets i).val = 0 with
  | some i =>
    ({ s with inboundSockets := Function.update s.inboundSockets i ns },
      if 0 < ns.val then [.accepted ns] else [])
  | none => (s, [.closed ns])

/-- The beacon branch; `sock` is what `connect_to_peer` returns if it is called. A
negative id passes the test against `MAX_PEERS` and indexes outside the table. -/
def receiveBeacon (s : Node) (len : Int) (b : Beacon) (sock : Sock) :
    Except Fault (Node × List Action) :=
  if len = 12 ∧ b.magic = 0xCAFEBABE then
    if b.nodeId ≠ s.myNodeId ∧ b.nodeId < 16 then do
      let fd ← readEntry s.peerSockets b.nodeId
      if fd.val = 0 then
        if 0 < sock.val then
          let peerSockets ← writeEntry s.peerSockets b.nodeId sock
          .ok ({ s with
              peerSockets := peerSockets
              socketToId := Function.update s.socketToId sock b.nodeId },
            [.connected b.nodeId.toNat sock])
        else .ok (s, [])
      else .ok (s, [])
    else .ok (s, [])
  else .ok (s, [])

/-- The status report of the heartbeat, over the old content of `b_msg`. -/
def statusReport (s : Node) (cpu queue : Nat) (old : Message) : Message where
  senderId := UInt16.ofInt s.myNodeId
  type := .statusReport
  payload := old.payload.overlay
    (NodeStatus.octets ⟨UInt8.ofNat (cpu % 100), 100, UInt8.ofNat (queue % 10)⟩) (by simp)

/-- The heartbeat branch: the report goes to every open entry of both tables. -/
def heartbeat (s : Node) (cpu queue : Nat) (old : Message) : List Action :=
  let msg := s.statusReport cpu queue old
  ((List.finRange 16).filter fun i => i.val ≠ 0 ∧ 0 < (s.peerSockets i).val).map
      (fun i => .sent (s.peerSockets i) msg) ++
    ((List.finRange 16).filter fun i => 0 < (s.inboundSockets i).val).map
      (fun i => .sent (s.inboundSockets i) msg)

end Node

/-- One branch of an engine round or one API call. -/
inductive Event where
  | heartbeat (cpu queue : Nat) (old : Message)
  | beacon (len : Int) (b : Beacon) (sock : Sock)
  | accept (ns : Sock)
  | read (slot : Slot) (input : ReadResult) (ctx : ReadContext)
  | spawnWasm (ctx : SpawnContext) (file : Option File) (func : List UInt8)
      (args : List (List UInt8))
  | distributed (ctx : SpawnContext) (file : Option File) (func : List UInt8) (start stop : Int32)

/-- The effect of an event. The read loops do not reach `peer_sockets[0]`. -/
def Node.step (s : Node) : Event → Except Fault (Node × List Action)
  | .heartbeat cpu queue old => .ok (s, s.heartbeat cpu queue old)
  | .beacon len b sock => s.receiveBeacon len b sock
  | .accept ns => .ok (s.acceptConnection ns)
  | .read slot input ctx => if slot.serviced then s.handleSock ctx slot input else .ok (s, [])
  | .spawnWasm ctx file func args => velumSpawnWasm ctx file func args s
  | .distributed ctx file func start stop => velumSpawnWasmDistributed ctx file func start stop s

/-- A descriptor that `accept` or `connect` may return: -1, or one not open now.
Descriptor 0 is the console the node takes its commands from. -/
def Node.Fresh (s : Node) (fd : Sock) : Prop :=
  fd = .failed ∨ (0 < fd.val ∧ ∀ slot, s.sock slot ≠ fd)

/-- The operating system hands out descriptors that are not open. -/
def Node.Admissible (s : Node) : Event → Prop
  | .beacon _ _ sock => s.Fresh sock
  | .accept ns => s.Fresh ns
  | _ => True

/-- A completed step of the node. -/
def Node.Step (s : Node) (event : Event) (actions : List Action) (after : Node) : Prop :=
  s.Admissible event ∧ s.step event = .ok (after, actions)

/-- The outgoing connection to a sender, if it is open. -/
def Node.replyTarget (s : Node) (senderId : UInt16) : Option Sock :=
  if inside : senderId.toNat < 16 then
    if 0 < (s.peerSockets ⟨senderId.toNat, inside⟩).val then
      some (s.peerSockets ⟨senderId.toNat, inside⟩)
    else none
  else none

/-- The bound of `reply_sock` keeps the index inside the table. -/
theorem replySock_ok (s : Node) (senderId : UInt16) :
    s.replySock senderId = .ok (s.replyTarget senderId) := by
  unfold Node.replySock Node.replyTarget
  split
  · next inside => exact bind_of_ok (readEntry_val s.peerSockets ⟨senderId.toNat, inside⟩) _
  · rfl

/-- The state and the actions of a connection that is dropped. -/
def Node.closeConnection (s : Node) (slot : Slot) : Node × List Action :=
  let fd := s.sock slot
  let deadNode := s.socketToId fd
  let zeroed := s.setSock slot .free
  let cleared := { zeroed with
    socketToId := Function.update zeroed.socketToId (zeroed.sock slot) (-1) }
  if deadNode ≠ -1 then
    ({ cleared with
        clusterStatus := withoutNode cleared.clusterStatus deadNode
        pendingTasks := Function.update cleared.pendingTasks deadNode none },
      [.closed fd, .died deadNode])
  else (cleared, [.closed fd])

/-- A failed read is handled without a fault. -/
theorem dropConnection_ok (s : Node) (slot : Slot) :
    s.dropConnection slot = .ok (s.closeConnection slot) := by
  unfold Node.dropConnection Node.closeConnection
  dsimp only
  split
  · exact bind_of_ok (handleDisconnect_ok _ _) _
  · rfl

/-- What a beacon with the magic of a foreign node does if its id is in the table. -/
theorem receiveBeacon_inside (s : Node) (i : Fin 16) (port : Int) (sock : Sock)
    (foreign : (i.val : Int) ≠ s.myNodeId) :
    s.receiveBeacon 12 ⟨0xCAFEBABE, i.val, port⟩ sock =
      if (s.peerSockets i).val = 0 ∧ 0 < sock.val then
        .ok ({ s with
            peerSockets := Function.update s.peerSockets i sock
            socketToId := Function.update s.socketToId sock (i.val : Int) },
          [.connected i.val sock])
      else .ok (s, []) := by
  have bound := i.isLt
  simp only [Node.receiveBeacon, and_self, if_true]
  rw [if_pos ⟨foreign, by omega⟩]
  apply (bind_of_ok (readEntry_val s.peerSockets i) _).trans
  by_cases free : (s.peerSockets i).val = 0
  · by_cases live : 0 < sock.val
    · rw [if_pos free, if_pos live, if_pos ⟨free, live⟩]
      exact bind_of_ok (writeEntry_val s.peerSockets i sock) _
    · rw [if_pos free, if_neg live, if_neg fun both => live both.2]
  · rw [if_neg free, if_neg fun both => free both.1]

/-- A beacon that is handled without a fault is ignored or has an id of the table. -/
theorem receiveBeacon_cases {s : Node} {len : Int} {b : Beacon} {sock : Sock}
    {result : Node × List Action} (success : s.receiveBeacon len b sock = .ok result) :
    result = (s, []) ∨ ∃ i : Fin 16, b.nodeId = i.val ∧ (s.peerSockets i).val = 0 ∧
      0 < sock.val ∧ result = ({ s with
          peerSockets := Function.update s.peerSockets i sock
          socketToId := Function.update s.socketToId sock (i.val : Int) },
        [.connected i.val sock]) := by
  obtain ⟨magic, nodeId, port⟩ := b
  by_cases beacon : len = 12 ∧ magic = 0xCAFEBABE
  · obtain ⟨rfl, rfl⟩ := beacon
    by_cases guarded : nodeId ≠ s.myNodeId ∧ nodeId < 16
    · by_cases negative : nodeId < 0
      · simp only [Node.receiveBeacon, and_self, if_true, if_pos guarded] at success
        rw [(readEntry_fault_iff s.peerSockets nodeId).mpr (by omega)] at success
        cases success
      · obtain ⟨i, rfl⟩ : ∃ i : Fin 16, (i.val : Int) = nodeId :=
          ⟨⟨nodeId.toNat, by omega⟩, by simp; omega⟩
        rw [receiveBeacon_inside s i port sock guarded.1] at success
        split at success
        · next opened =>
          cases success
          exact .inr ⟨i, rfl, opened.1, opened.2, rfl⟩
        · cases success
          exact .inl rfl
    · simp only [Node.receiveBeacon, and_self, if_true, if_neg guarded] at success
      cases success
      exact .inl rfl
  · simp only [Node.receiveBeacon, if_neg beacon] at success
    cases success
    exact .inl rfl

/-- Actions that only answer or report. -/
def OnlySends (actions : List Action) : Prop := ∀ a ∈ actions, ∃ fd msg, a = .sent fd msg

/-- Everything a completed step can do. -/
inductive Effect (s : Node) : Event → List Action → Node → Prop
  | quiet {event : Event} {actions : List Action} (sends : OnlySends actions)
      (idle : ∀ slot input ctx, event = .read slot input ctx →
        ¬ (slot.serviced ∧ 0 < (s.sock slot).val)) :
      Effect s event actions s
  | connected {len : Int} {b : Beacon} {fd : Sock} (i : Fin 16)
      (free : (s.peerSockets i).val = 0) (live : 0 < fd.val) (fresh : ∀ slot, s.sock slot ≠ fd) :
      Effect s (.beacon len b fd) [.connected i.val fd]
        { s with
          peerSockets := Function.update s.peerSockets i fd
          socketToId := Function.update s.socketToId fd (i.val : Int) }
  | admitted {ns : Sock} (i : Fin 16) (free : (s.inboundSockets i).val = 0) (live : 0 < ns.val)
      (fresh : ∀ slot, s.sock slot ≠ ns) :
      Effect s (.accept ns) [.accepted ns]
        { s with inboundSockets := Function.update s.inboundSockets i ns }
  | failedAccept (i : Fin 16) (free : (s.inboundSockets i).val = 0) :
      Effect s (.accept .failed) []
        { s with inboundSockets := Function.update s.inboundSockets i .failed }
  | refused {ns : Sock} (fresh : s.Fresh ns) : Effect s (.accept ns) [.closed ns] s
  | closed {slot : Slot} {ctx : ReadContext} (live : 0 < (s.sock slot).val)
      (serviced : slot.serviced) :
      Effect s (.read slot .failed ctx) (s.closeConnection slot).2 (s.closeConnection slot).1
  | received {slot : Slot} {piece : List UInt8} {nonempty : 0 < piece.length}
      {fits : piece.length ≤ 4099} {ctx : ReadContext} {sends : List Action}
      (status : ClusterStatus) (live : 0 < (s.sock slot).val) (serviced : slot.serviced)
      (onlySends : OnlySends sends) :
      Effect s (.read slot (.data piece nonempty fits) ctx)
        (.received slot (s.sock slot) (s.messageRead piece fits) :: sends)
        { s.afterRead (s.sock slot) (s.messageRead piece fits) with clusterStatus := status }
  | spawned {ctx : SpawnContext} {file : Option File} {func : List UInt8}
      {args : List (List UInt8)} (task : Dispatch)
      (target : s.findTarget task.worker = some task.fd) :
      Effect s (.spawnWasm ctx file func args) [.dispatched .spawnWasm task]
        { s with clusterStatus := markedBusy s.clusterStatus task.worker }
  | scattered {ctx : SpawnContext} {file : Option File} {func : List UInt8} {start stop : Int32}
      (tasks : List Dispatch) (jobId : UInt32) (readable : ∃ f, file = some f ∧ f.fsize ≤ 2000)
      (workers : (tasks.map Dispatch.worker).Sublist (s.findAllWorkers s.myNodeId))
      (targets : ∀ task ∈ tasks, s.findTarget task.worker = some task.fd) :
      Effect s (.distributed ctx file func start stop)
        (.recorded jobId :: tasks.map (.dispatched .distributed))
        (tasks.foldl Node.afterScatterSend (s.recordJob jobId (stop - start)))

/-! ## What a closed connection changes -/

theorem closeConnection_sock (s : Node) (slot other : Slot) :
    (s.closeConnection slot).1.sock other = if other = slot then .free else s.sock other := by
  rw [← Node.sock_setSock]
  by_cases unmapped : s.socketToId (s.sock slot) = -1
  · cases other <;> simp [Node.closeConnection, unmapped]
  · cases other <;> simp [Node.closeConnection, unmapped]

/-- The index is read from the entry that was just zeroed. -/
theorem closeConnection_socketToId (s : Node) (slot : Slot) :
    (s.closeConnection slot).1.socketToId = Function.update s.socketToId .free (-1) := by
  by_cases unmapped : s.socketToId (s.sock slot) = -1
  · simp [Node.closeConnection, unmapped, Node.sock_setSock]
  · simp [Node.closeConnection, unmapped, Node.sock_setSock]

theorem closeConnection_pendingTasks (s : Node) (slot : Slot) :
    (s.closeConnection slot).1.pendingTasks = if s.socketToId (s.sock slot) = -1 then
      s.pendingTasks else Function.update s.pendingTasks (s.socketToId (s.sock slot)) none := by
  by_cases unmapped : s.socketToId (s.sock slot) = -1
  · simp [Node.closeConnection, unmapped]
  · simp [Node.closeConnection, unmapped]

theorem closeConnection_clusterStatus (s : Node) (slot : Slot) :
    (s.closeConnection slot).1.clusterStatus = if s.socketToId (s.sock slot) = -1 then
      s.clusterStatus else withoutNode s.clusterStatus (s.socketToId (s.sock slot)) := by
  by_cases unmapped : s.socketToId (s.sock slot) = -1
  · simp [Node.closeConnection, unmapped]
  · simp [Node.closeConnection, unmapped]

@[simp] theorem closeConnection_activeJobs (s : Node) (slot : Slot) :
    (s.closeConnection slot).1.activeJobs = s.activeJobs := by
  by_cases unmapped : s.socketToId (s.sock slot) = -1
  · simp [Node.closeConnection, unmapped]
  · simp [Node.closeConnection, unmapped]

@[simp] theorem closeConnection_myNodeId (s : Node) (slot : Slot) :
    (s.closeConnection slot).1.myNodeId = s.myNodeId := by
  by_cases unmapped : s.socketToId (s.sock slot) = -1
  · simp [Node.closeConnection, unmapped]
  · simp [Node.closeConnection, unmapped]

theorem closeConnection_actions (s : Node) (slot : Slot) :
    (s.closeConnection slot).2 = .closed (s.sock slot) ::
      if s.socketToId (s.sock slot) = -1 then [] else [.died (s.socketToId (s.sock slot))] := by
  by_cases unmapped : s.socketToId (s.sock slot) = -1
  · simp [Node.closeConnection, unmapped]
  · simp [Node.closeConnection, unmapped]

/-! ## What a step can do -/

theorem OnlySends.nil : OnlySends [] := by simp [OnlySends]

theorem OnlySends.single (fd : Sock) (msg : Message) : OnlySends [.sent fd msg] :=
  fun _ member => ⟨fd, msg, List.mem_singleton.mp member⟩

theorem OnlySends.map_sent (fd : Sock) (replies : List Message) :
    OnlySends (replies.map (.sent fd)) := by
  intro a member
  obtain ⟨msg, _, rfl⟩ := List.mem_map.mp member
  exact ⟨fd, msg, rfl⟩

theorem heartbeat_onlySends (s : Node) (cpu queue : Nat) (old : Message) :
    OnlySends (s.heartbeat cpu queue old) := by
  intro a member
  rcases List.mem_append.mp member with outgoing | inbound
  · obtain ⟨i, _, rfl⟩ := List.mem_map.mp outgoing
    exact ⟨_, _, rfl⟩
  · obtain ⟨i, _, rfl⟩ := List.mem_map.mp inbound
    exact ⟨_, _, rfl⟩

theorem forwardMessage_cases (ctx : ReadContext) (s after : Node) (fd : Sock) (msg : Message)
    (actions : List Action) (success : s.forwardMessage ctx fd msg = .ok (after, actions)) :
    OnlySends actions ∧ ∃ status, after = { s with clusterStatus := status } := by
  obtain ⟨⟨status, replies⟩, _, success⟩ := bind_success success
  cases success
  exact ⟨.map_sent fd replies, status, rfl⟩

theorem executeWasm_cases (ctx : ReadContext) (s : Node) (msg : Message) (actions : List Action)
    (success : s.executeWasm ctx msg = .ok actions) :
    ∃ resVal, runWasmRequest ctx msg.payload = .ok resVal ∧
      actions = match s.replyTarget msg.senderId with
        | none => []
        | some fd => [.sent fd (resultMessage (ctx.task.stack 0) s.myNodeId .taskResult
            ⟨(TaskHeader.view msg.payload).jobId, resVal, 1⟩)] := by
  obtain ⟨resVal, ran, success⟩ := bind_success success
  refine ⟨resVal, ran, ?_⟩
  obtain ⟨target, chosen, success⟩ := bind_success success
  obtain rfl := Except.ok.inj (chosen.symm.trans (replySock_ok s msg.senderId))
  split at success <;> cases success <;> simp_all

/-- Handling a message changes the status table at most, and only sends. -/
theorem processMessage_cases (ctx : ReadContext) (s after : Node) (fd : Sock) (msg : Message)
    (actions : List Action) (success : s.processMessage ctx fd msg = .ok (after, actions)) :
    OnlySends actions ∧ ∃ status, after = { s with clusterStatus := status } := by
  unfold Node.processMessage at success
  split at success
  · split at success
    · obtain ⟨sends, executed, success⟩ := bind_success success
      cases success
      obtain ⟨_, _, rfl⟩ := executeWasm_cases ctx s msg _ executed
      refine ⟨?_, s.clusterStatus, rfl⟩
      split
      · exact .nil
      · exact .single _ _
    · exact forwardMessage_cases ctx s after fd msg actions success
  · cases success
    exact ⟨.nil, s.clusterStatus, rfl⟩
  · cases success
    exact ⟨.nil, s.clusterStatus, rfl⟩
  · exact forwardMessage_cases ctx s after fd msg actions success

/-- Handling a message changes the entry of its sender at most, and only with a report. -/
theorem processMessage_changes {ctx : ReadContext} {s after : Node} {fd : Sock} {msg : Message}
    {actions : List Action} (success : s.processMessage ctx fd msg = .ok (after, actions))
    {w : Fin 17} (changed : after.clusterStatus w ≠ s.clusterStatus w) :
    msg.type = .statusReport ∧ w.val = msg.senderId.toNat := by
  have forwarded (success : s.forwardMessage ctx fd msg = .ok (after, actions)) :
      msg.type = .statusReport ∧ w.val = msg.senderId.toNat := by
    obtain ⟨⟨status, replies⟩, handled, success⟩ := bind_success success
    cases success
    exact handleMessage_changes handled changed
  unfold Node.processMessage at success
  split at success
  · split at success
    · obtain ⟨_, _, success⟩ := bind_success success
      cases success
      exact absurd rfl changed
    · exact forwarded success
  · cases success
    exact absurd rfl changed
  · cases success
    exact absurd rfl changed
  · exact forwarded success

theorem handleSock_data (ctx : ReadContext) (s after : Node) (slot : Slot) (piece : List UInt8)
    (nonempty : 0 < piece.length) (fits : piece.length ≤ 4099) (actions : List Action)
    (live : 0 < (s.sock slot).val)
    (success : s.handleSock ctx slot (.data piece nonempty fits) = .ok (after, actions)) :
    ∃ sends, actions = .received slot (s.sock slot) (s.messageRead piece fits) :: sends ∧
      (s.afterRead (s.sock slot) (s.messageRead piece fits)).processMessage ctx (s.sock slot)
        (s.messageRead piece fits) = .ok (after, sends) := by
  unfold Node.handleSock at success
  rw [if_pos live] at success
  obtain ⟨⟨last, sends⟩, processed, success⟩ := bind_success success
  cases success
  exact ⟨sends, rfl, processed⟩

/-- The beacon branch opens one connection or does nothing. -/
theorem receiveBeacon_effect (s after : Node) (len : Int) (b : Beacon) (sock : Sock)
    (actions : List Action) (admissible : s.Fresh sock)
    (success : s.receiveBeacon len b sock = .ok (after, actions)) :
    Effect s (.beacon len b sock) actions after := by
  rcases receiveBeacon_cases success with ignored | ⟨i, _, free, live, opened⟩
  · cases ignored
    exact .quiet .nil nofun
  · cases opened
    rcases admissible with rfl | ⟨_, fresh⟩
    · exact absurd live (by decide)
    · exact .connected i free live fresh

/-- The accept branch fills a free entry or closes the descriptor. -/
theorem acceptConnection_effect (s : Node) (ns : Sock) (admissible : s.Fresh ns) :
    Effect s (.accept ns) (s.acceptConnection ns).2 (s.acceptConnection ns).1 := by
  unfold Node.acceptConnection
  split
  · next i found =>
    have free : (s.inboundSockets i).val = 0 := by simpa using List.find?_some found
    rcases admissible with rfl | ⟨live, fresh⟩
    · exact .failedAccept i free
    · simp only [if_pos live]
      exact .admitted i free live fresh
  · exact .refused admissible

/-- A read of an open entry closes it or notes one message and sends. -/
theorem handleSock_effect (ctx : ReadContext) (s after : Node) (slot : Slot) (input : ReadResult)
    (actions : List Action) (serviced : slot.serviced) (live : 0 < (s.sock slot).val)
    (success : s.handleSock ctx slot input = .ok (after, actions)) :
    Effect s (.read slot input ctx) actions after := by
  cases input with
  | failed =>
    simp only [Node.handleSock, if_pos live, dropConnection_ok, Except.ok.injEq] at success
    have after_eq : (s.closeConnection slot).1 = after := by rw [success]
    have actions_eq : (s.closeConnection slot).2 = actions := by rw [success]
    rw [← after_eq, ← actions_eq]
    exact .closed live serviced
  | data piece nonempty fits =>
    obtain ⟨sends, rfl, processed⟩ := handleSock_data ctx s after slot piece nonempty fits
      actions live success
    obtain ⟨onlySends, status, rfl⟩ := processMessage_cases ctx _ _ _ _ _ processed
    exact .received status live serviced onlySends

/-- The inversion of a completed step. -/
theorem Node.Step.effect {s after : Node} {event : Event} {actions : List Action}
    (step : s.Step event actions after) : Effect s event actions after := by
  obtain ⟨admissible, success⟩ := step
  cases event with
  | heartbeat cpu queue old =>
    cases success
    exact .quiet (heartbeat_onlySends s cpu queue old) nofun
  | beacon len b sock => exact receiveBeacon_effect s after len b sock actions admissible success
  | accept ns =>
    have accepted : s.acceptConnection ns = (after, actions) := Except.ok.inj success
    have effect := acceptConnection_effect s ns admissible
    rwa [accepted] at effect
  | read slot input ctx =>
    have idle (closed : ¬ (slot.serviced ∧ 0 < (s.sock slot).val)) :
        Effect s (.read slot input ctx) [] s := by
      apply Effect.quiet OnlySends.nil
      intro other piece found same
      cases same
      exact closed
    simp only [Node.step] at success
    split at success
    · next serviced =>
      by_cases live : 0 < (s.sock slot).val
      · exact handleSock_effect ctx s after slot input actions serviced live success
      · simp only [Node.handleSock, if_neg live] at success
        cases success
        exact idle fun both => live both.2
    · next skipped =>
      cases success
      exact idle fun both => skipped both.1
  | spawnWasm ctx file func args =>
    rcases velumSpawnWasm_cases ctx file func args s after actions success with
      ⟨rfl, rfl⟩ | ⟨winner, target, msg, _, found, rfl, rfl⟩
    · exact .quiet .nil nofun
    · exact .spawned ⟨winner, target, msg⟩ found
  | distributed ctx file func start stop =>
    rcases velumSpawnWasmDistributed_cases ctx file func start stop s after actions success with
      ⟨rfl, rfl⟩ | ⟨tasks, jobId, readable, rfl, workers, targets, rfl⟩
    · exact .quiet .nil nofun
    · exact .scattered tasks jobId readable workers targets

end VelumOS.Source
