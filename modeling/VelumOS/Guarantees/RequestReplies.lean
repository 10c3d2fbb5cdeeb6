import VelumOS.Spec.Connections

/-!
# Replies to Wasm requests

The `EXECUTE_WASM` branch replies on `peer_sockets[sender_id]` if the id is below
`MAX_PEERS` and that entry is open, and not at all otherwise; the other op codes are
answered on the connection the request came from. `requested_cases` gives the one
result, if any, that a completed request sends.
-/
namespace VelumOS.Guarantees.RequestReplies
open VelumOS.Source VelumOS.Spec Base.Octets Base.Runs

def sentMessage : Action → Option (Sock × Message)
  | .sent fd msg => some (fd, msg)
  | _ => none

/-- The messages a step sends outside the API calls, with their descriptors. -/
def sentMessages (actions : List Action) : List (Sock × Message) := actions.filterMap sentMessage

/-- An open connection that was opened for a node or is mapped to it. -/
def ConnectionTo (s : Node) (nodeId : Nat) (fd : Sock) : Prop :=
  s.Open fd ∧ (s.socketToId fd = nodeId ∨ ∃ i : Fin 16, i.val = nodeId ∧ s.peerSockets i = fd)

/-- The step reads an `EXECUTE_WASM` request. -/
def Requested (t : Transition Node Event Action) (msg : Message) : Prop :=
  ∃ slot piece nonempty fits ctx, t.event = .read slot (.data piece nonempty fits) ctx ∧
    slot.serviced = true ∧ 0 < (t.before.sock slot).val ∧ t.before.messageRead piece fits = msg ∧
    msg.type = .taskRequest ∧ (TaskHeader.view msg.payload).opCode = .executeWasm

/-- The step sends one message, a result for the request's job, to its sender. -/
def Answered (t : Transition Node Event Action) (msg : Message) : Prop :=
  ∃ fd reply, sentMessages t.actions = [(fd, reply)] ∧ reply.type = .taskResult ∧
    (TaskResult.view reply.payload).jobId = (TaskHeader.view msg.payload).jobId ∧
    ConnectionTo t.after msg.senderId.toNat fd

/-- The node holds an outgoing connection for the id. -/
def HasOutgoing (s : Node) (nodeId : Nat) : Prop :=
  ∃ i : Fin 16, i.val = nodeId ∧ 0 < (s.peerSockets i).val

theorem replyTarget_eq_some_iff (s : Node) (senderId : UInt16) (fd : Sock) :
    s.replyTarget senderId = some fd ↔
      ∃ i : Fin 16, i.val = senderId.toNat ∧ 0 < (s.peerSockets i).val ∧ s.peerSockets i = fd := by
  unfold Node.replyTarget
  constructor
  · intro chosen
    split at chosen
    · next inside =>
      split at chosen
      · next live => exact ⟨⟨_, inside⟩, rfl, live, Option.some.inj chosen⟩
      · cases chosen
    · cases chosen
  · intro outgoing
    obtain ⟨i, same, live, rfl⟩ := outgoing
    have inside : senderId.toNat < 16 := same ▸ i.isLt
    have entry : (⟨senderId.toNat, inside⟩ : Fin 16) = i := Fin.ext same.symm
    rw [dif_pos inside, entry, if_pos live]

/-- A completed request noted the message and sent the result on `reply_sock`. -/
theorem requested_cases (t : Transition Node Event Action) (msg : Message)
    (valid : t.Valid Node.Step) (requested : Requested t msg) :
    ∃ fd resVal reply, t.after = t.before.afterRead fd msg ∧ reply.type = MsgType.taskResult ∧
      TaskResult.view reply.payload = ⟨(TaskHeader.view msg.payload).jobId, resVal, 1⟩ ∧
      sentMessages t.actions = match t.before.replyTarget msg.senderId with
        | none => []
        | some target => [(target, reply)] := by
  obtain ⟨slot, piece, nonempty, fits, ctx, event, serviced, live, read, type, op⟩ := requested
  have success := valid.2
  rw [event, Node.step, if_pos serviced] at success
  obtain ⟨sends, actions, processed⟩ := handleSock_data ctx t.before t.after slot piece nonempty
    fits t.actions live success
  rw [read] at processed actions
  simp only [Node.processMessage, type, op, if_true] at processed
  obtain ⟨executed, run, processed⟩ := bind_success processed
  simp only [Except.ok.injEq, Prod.mk.injEq] at processed
  obtain ⟨after, rfl⟩ := processed
  obtain ⟨resVal, _, replies⟩ := executeWasm_cases ctx _ msg executed run
  refine ⟨_, resVal, _, after.symm, rfl, view_resultMessage (ctx.task.stack 0) t.before.myNodeId
    .taskResult ⟨(TaskHeader.view msg.payload).jobId, resVal, 1⟩, ?_⟩
  rw [actions, replies]
  show sentMessages (_ :: match t.before.replyTarget msg.senderId with
    | none => []
    | some fd => [.sent fd _]) = _
  cases t.before.replyTarget msg.senderId <;> rfl

/-- A request is answered exactly when its sender has an outgoing connection. -/
theorem answered_iff (t : Transition Node Event Action) (msg : Message)
    (valid : t.Valid Node.Step) (requested : Requested t msg) :
    Answered t msg ↔ HasOutgoing t.before msg.senderId.toNat := by
  obtain ⟨fd, resVal, reply, after, type, result, sent⟩ := requested_cases t msg valid requested
  constructor
  · intro answered
    obtain ⟨target, _, one, _⟩ := answered
    cases chosen : t.before.replyTarget msg.senderId with
    | none => simp [sent, chosen] at one
    | some target =>
      obtain ⟨i, same, live, _⟩ := (replyTarget_eq_some_iff _ _ _).mp chosen
      exact ⟨i, same, live⟩
  · intro outgoing
    obtain ⟨i, same, live⟩ := outgoing
    have chosen := (replyTarget_eq_some_iff t.before msg.senderId _).mpr ⟨i, same, live, rfl⟩
    rw [chosen] at sent
    refine ⟨_, reply, sent, type, by rw [result], ?_⟩
    rw [after]
    exact ⟨⟨live, .peer i, rfl⟩, .inr ⟨i, same, rfl⟩⟩

/-- In every run, each completed `EXECUTE_WASM` request is answered by exactly one
result for its job on a connection to its sender, if and only if at each of them
an outgoing connection to the sender is open. -/
theorem requests_answered_iff {start last : Node} {steps : List (Transition Node Event Action)}
    (run : Run Node.Step start steps last) :
    (∀ t ∈ steps, ∀ msg, Requested t msg → Answered t msg) ↔
      ∀ t ∈ steps, ∀ msg, Requested t msg → HasOutgoing t.before msg.senderId.toNat := by
  constructor
  · intro answered t member msg requested
    exact (answered_iff t msg (run.valid t member) requested).mp (answered t member msg requested)
  · intro outgoing t member msg requested
    exact (answered_iff t msg (run.valid t member) requested).mpr (outgoing t member msg requested)

/-- A request from node 2 for a module of no octets and a function without a name. -/
def emptyRequest : Message := ⟨2, .taskRequest, (Block.fill 4096 0).overlay [4] (by decide)⟩

/-- An interpreter that cannot be allocated. -/
def noEnvironment : ReadContext :=
  { ReadContext.refusing with wasm3 := { Wasm3.refusing with newEnvironment := false } }

/-- A request that runs to a result is a step. -/
theorem step_request (s : Node) (slot : Slot) (msg : Message) (ctx : ReadContext) (resVal : Int32)
    (serviced : slot.serviced = true) (live : 0 < (s.sock slot).val) (type : msg.type = .taskRequest)
    (op : (TaskHeader.view msg.payload).opCode = .executeWasm)
    (ran : runWasmRequest ctx msg.payload = .ok resVal) : ∃ actions,
      s.Step (readWhole slot msg ctx) actions (s.afterRead (s.sock slot) msg) := by
  have executed : ∃ actions,
      (s.afterRead (s.sock slot) msg).executeWasm ctx msg = .ok actions := by
    simp only [Node.executeWasm, bind_of_ok ran, bind_of_ok (replySock_ok _ msg.senderId)]
    split
    · exact ⟨_, rfl⟩
    · exact ⟨_, rfl⟩
  obtain ⟨replies, executed⟩ := executed
  have processed : (s.afterRead (s.sock slot) msg).processMessage ctx (s.sock slot) msg =
      .ok (s.afterRead (s.sock slot) msg, replies) := by
    rw [Node.processMessage, type]
    simp only [if_pos op]
    exact bind_of_ok executed _
  refine ⟨.received slot (s.sock slot) msg :: replies, trivial, ?_⟩
  rw [readWhole, Node.step, if_pos serviced, Node.handleSock, if_pos live]
  simp only [messageRead_whole]
  exact bind_of_ok processed _

theorem requested_of_readWhole {t : Transition Node Event Action} (slot : Slot) (msg : Message)
    (ctx : ReadContext) (read : t.event = readWhole slot msg ctx) (serviced : slot.serviced = true)
    (live : 0 < (t.before.sock slot).val) (type : msg.type = .taskRequest)
    (op : (TaskHeader.view msg.payload).opCode = .executeWasm) : Requested t msg :=
  ⟨slot, _, _, _, _, read, serviced, live, messageRead_whole _ _, type, op⟩

/-- The read of a whole `emptyRequest`. -/
def readRequest (slot : Slot) : Event := readWhole slot emptyRequest noEnvironment

theorem step_readRequest (s : Node) (slot : Slot) (serviced : slot.serviced = true)
    (live : 0 < (s.sock slot).val) : ∃ actions,
      s.Step (readRequest slot) actions (s.afterRead (s.sock slot) emptyRequest) :=
  step_request s slot emptyRequest noEnvironment (-1) serviced live rfl rfl rfl

theorem requested_of_readRequest {t : Transition Node Event Action} (slot : Slot)
    (read : t.event = readRequest slot) (serviced : slot.serviced = true)
    (live : 0 < (t.before.sock slot).val) : Requested t emptyRequest :=
  requested_of_readWhole slot emptyRequest noEnvironment read serviced live rfl rfl

theorem eq_of_readRequest {t : Transition Node Event Action} {slot : Slot} {msg : Message}
    (requested : Requested t msg) (read : t.event = readRequest slot) : msg = emptyRequest := by
  obtain ⟨_, _, _, _, _, event, _, _, same, _⟩ := requested
  rw [event] at read
  cases read
  exact same.symm.trans (messageRead_whole t.before emptyRequest)

/-- Node 2 is connected and asks on that connection. -/
theorem requests_answered_peer : ∃ last steps,
    Run Node.Step connectedTwo steps last ∧
      (∃ t ∈ steps, Requested t emptyRequest) ∧
      ∀ t ∈ steps, ∀ msg, Requested t msg → Answered t msg := by
  have live : 0 < (connectedTwo.peerSockets 2).val := by decide
  obtain ⟨actions, step⟩ := step_readRequest connectedTwo
    (.peer 2) rfl live
  have run := Run.single step
  refine ⟨_, _, run, ⟨_, List.mem_singleton.mpr rfl, requested_of_readRequest (.peer 2) rfl rfl live⟩,
    (requests_answered_iff run).mpr fun t member msg requested => ?_⟩
  obtain rfl := List.mem_singleton.mp member
  rw [eq_of_readRequest requested rfl]
  exact ⟨2, rfl, live⟩

/-- Node 2 opened a connection itself and asks on it; it gets no reply. -/
theorem requests_answered_inbound : ¬ ∀ (last : Node) (steps : List (Transition Node Event Action))
    (_ : Run Node.Step (.boot 1 .zeroed) steps last),
    ∀ t ∈ steps, ∀ msg, Requested t msg → Answered t msg := by
  intro always
  have accept := step_accept (.boot 1 .zeroed) fd5 rfl (by decide) (by
    intro slot
    rw [sock_boot]
    decide)
  have live : 0 < (((Node.boot 1 .zeroed).setSock (.inbound 0) fd5).sock
    (.inbound 0)).val := by decide
  obtain ⟨actions, request⟩ := step_readRequest
    ((Node.boot 1 .zeroed).setSock (.inbound 0) fd5) (.inbound 0) rfl live
  have run := (Run.single accept).snoc request
  have valid := run.valid _ List.mem_concat_self
  have answered := always _ _ run _ List.mem_concat_self
    emptyRequest (requested_of_readRequest (.inbound 0) rfl rfl live)
  have outgoing := (answered_iff _ _ valid
    (requested_of_readRequest (.inbound 0) rfl rfl live)).mp answered
  obtain ⟨i, _, open_⟩ := outgoing
  exact absurd open_ (lt_irrefl 0)

end VelumOS.Guarantees.RequestReplies
