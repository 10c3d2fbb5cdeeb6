import VelumOS.Source.Engine

/-!
# Connection tables over a run

Every step changes at most one table entry, and in one of two ways: a free entry
takes a new descriptor, or an open entry whose read failed is freed. From this: an
open entry keeps its descriptor until its read fails, and no descriptor is ever in
two entries. The last part has steps that later modules put together to runs.
-/
namespace VelumOS.Spec
open VelumOS.Source Base.Octets Base.Runs

/-- What a step may put into an entry: what is there, a new descriptor into a free
entry, or a zero after a failed read. -/
def Stores (s : Node) (event : Event) (slot : Slot) (fd : Sock) : Prop :=
  fd = s.sock slot ∨ ((s.sock slot).val = 0 ∧ s.Fresh fd) ∨
    (fd = .free ∧ 0 < (s.sock slot).val ∧ ∃ ctx, event = .read slot .failed ctx)

theorem sock_storePeer (s : Node) (i : Fin 16) (fd : Sock) (ids : Sock → Int) (other : Slot) :
    ({ s with peerSockets := Function.update s.peerSockets i fd, socketToId := ids } : Node).sock
      other = if other = .peer i then fd else s.sock other := by
  rw [← s.sock_setSock]
  cases other <;> rfl

theorem sock_storeInbound (s : Node) (i : Fin 16) (fd : Sock) (other : Slot) :
    ({ s with inboundSockets := Function.update s.inboundSockets i fd } : Node).sock other =
      if other = .inbound i then fd else s.sock other := by
  rw [← s.sock_setSock]
  cases other <;> rfl

/-- One entry at most changes. -/
theorem tables_of_effect {s after : Node} {event : Event} {actions : List Action}
    (effect : Effect s event actions after) : ∃ slot fd, Stores s event slot fd ∧
      ∀ other, after.sock other = if other = slot then fd else s.sock other := by
  have unchanged (same : ∀ other, after.sock other = s.sock other) : ∃ slot fd,
      Stores s event slot fd ∧ ∀ other, after.sock other = if other = slot then fd else s.sock other :=
    ⟨.peer 0, s.sock (.peer 0), .inl rfl, fun other => by split <;> simp_all⟩
  cases effect with
  | quiet => exact unchanged fun _ => rfl
  | @connected _ _ fd i free live fresh =>
    exact ⟨.peer i, fd, .inr (.inl ⟨free, .inr ⟨live, fresh⟩⟩), sock_storePeer s i fd _⟩
  | @admitted ns i free live fresh =>
    exact ⟨.inbound i, ns, .inr (.inl ⟨free, .inr ⟨live, fresh⟩⟩), sock_storeInbound s i ns⟩
  | failedAccept i free =>
    exact ⟨.inbound i, .failed, .inr (.inl ⟨free, .inl rfl⟩), sock_storeInbound s i .failed⟩
  | refused => exact unchanged fun _ => rfl
  | @closed slot ctx live serviced =>
    exact ⟨slot, .free, .inr (.inr ⟨rfl, live, ctx, rfl⟩), closeConnection_sock s slot⟩
  | received => exact unchanged fun other => by cases other <;> rfl
  | spawned => exact unchanged fun other => by cases other <;> rfl
  | scattered tasks jobId => exact unchanged (scatter_sameTables s jobId _ tasks).sock

/-- An open entry keeps its descriptor unless its read fails. -/
theorem sock_of_open {s after : Node} {event : Event} {actions : List Action} {slot : Slot}
    (effect : Effect s event actions after) (live : 0 < (s.sock slot).val)
    (kept : ∀ ctx, event ≠ .read slot .failed ctx) : after.sock slot = s.sock slot := by
  obtain ⟨changed, fd, stores, tables⟩ := tables_of_effect effect
  rw [tables]
  split
  · next same =>
    subst same
    rcases stores with rfl | ⟨free, _⟩ | ⟨_, _, ctx, failed⟩
    · rfl
    · omega
    · exact absurd failed (kept ctx)
  · rfl

/-- A descriptor that is open after a step was open before, unless it is new. -/
theorem open_of_effect {s after : Node} {event : Event} {actions : List Action} {slot : Slot}
    (effect : Effect s event actions after) (live : 0 < (after.sock slot).val) :
    after.sock slot = s.sock slot ∨ ∀ other, s.sock other ≠ after.sock slot := by
  obtain ⟨changed, fd, stores, tables⟩ := tables_of_effect effect
  rw [tables] at live ⊢
  split at live
  · next same =>
    rw [if_pos same]
    subst same
    rcases stores with rfl | ⟨_, fresh⟩ | ⟨rfl, _⟩
    · exact .inl rfl
    · rcases fresh with rfl | ⟨_, new⟩
      · exact absurd live (by decide)
      · exact .inr new
    · exact absurd live (by decide)
  · next other =>
    rw [if_neg other]
    exact .inl rfl

/-- No open descriptor is in two entries. -/
def Distinct (s : Node) : Prop :=
  ∀ first second, 0 < (s.sock first).val → s.sock first = s.sock second → first = second

theorem sock_boot (myNodeId : Int) (msgBuffer : Message) (slot : Slot) :
    (Node.boot myNodeId msgBuffer).sock slot = .free := by cases slot <;> rfl

theorem distinct_boot (myNodeId : Int) (msgBuffer : Message) :
    Distinct (.boot myNodeId msgBuffer) := by
  intro first second live
  exact absurd (sock_boot myNodeId msgBuffer first) (ne_free_of_live live)

/-- A step keeps the open descriptors distinct. -/
theorem distinct_step {s after : Node} {event : Event} {actions : List Action}
    (effect : Effect s event actions after) (distinct : Distinct s) : Distinct after := by
  intro first second live same
  by_contra different
  have liveSecond : 0 < (after.sock second).val := same ▸ live
  obtain ⟨changed, fd, _, tables⟩ := tables_of_effect effect
  rcases open_of_effect effect live with keptFirst | newFirst
  · rcases open_of_effect effect liveSecond with keptSecond | newSecond
    · rw [keptFirst] at live same
      rw [keptSecond] at same
      exact different (distinct first second live same)
    · exact newSecond first (keptFirst.symm.trans same)
  · rcases open_of_effect effect liveSecond with keptSecond | newSecond
    · exact newFirst second (keptSecond.symm.trans same.symm)
    · have atFirst : first = changed := by
        by_contra other
        exact newFirst first (by rw [tables, if_neg other])
      have atSecond : second = changed := by
        by_contra other
        exact newSecond second (by rw [tables, if_neg other])
      exact different (atFirst.trans atSecond.symm)

theorem open_congr {s after : Node} (same : ∀ slot, after.sock slot = s.sock slot) (fd : Sock) :
    after.Open fd ↔ s.Open fd := by
  simp only [Node.Open, same]

/-- A step that closes no connection keeps all of them open. -/
theorem open_of_calm {s after : Node} {event : Event} {actions : List Action}
    (effect : Effect s event actions after) (calm : ∀ slot ctx, event ≠ .read slot .failed ctx)
    (fd : Sock) (alive : s.Open fd) : after.Open fd := by
  obtain ⟨live, slot, rfl⟩ := alive
  exact ⟨live, slot, sock_of_open effect live (calm slot)⟩

/-- Closing an entry closes no other descriptor. -/
theorem open_of_other {s : Node} {fd : Sock} (slot : Slot) (alive : s.Open fd)
    (different : fd ≠ s.sock slot) : (s.closeConnection slot).1.Open fd := by
  obtain ⟨live, other, rfl⟩ := alive
  refine ⟨live, other, ?_⟩
  rw [closeConnection_sock, if_neg]
  intro same
  exact different (same ▸ rfl)

/-- A descriptor the operating system hands out is none of the open ones. -/
theorem ne_of_fresh {s : Node} {fd other : Sock} (fresh : s.Fresh fd) (alive : s.Open other) :
    other ≠ fd := by
  intro same
  rw [same] at alive
  rcases fresh with failed | ⟨_, new⟩
  · rw [failed] at alive
    exact absurd alive.1 (by decide)
  · exact alive.2.elim new

section Store
variable {s after : Node} {slot : Slot} {fd : Sock}

/-- A live descriptor in a free entry opens one connection. -/
theorem open_of_opened
    (tables : ∀ other, after.sock other = if other = slot then fd else s.sock other)
    (free : (s.sock slot).val = 0) (live : 0 < fd.val) (x : Sock) :
    after.Open x ↔ x = fd ∨ s.Open x := by
  constructor
  · intro alive
    obtain ⟨positive, other, rfl⟩ := alive
    rw [tables] at positive ⊢
    split
    · exact .inl rfl
    · next elsewhere =>
      rw [if_neg elsewhere] at positive
      exact .inr ⟨positive, other, rfl⟩
  · intro either
    rcases either with rfl | ⟨positive, other, rfl⟩
    · exact ⟨live, slot, by rw [tables, if_pos rfl]⟩
    · have elsewhere : other ≠ slot := by
        intro here
        rw [here] at positive
        omega
      exact ⟨positive, other, by rw [tables, if_neg elsewhere]⟩

/-- A failed descriptor in a free entry opens none. -/
theorem open_of_failed
    (tables : ∀ other, after.sock other = if other = slot then fd else s.sock other)
    (free : (s.sock slot).val = 0) (dead : fd.val ≤ 0) (x : Sock) : after.Open x ↔ s.Open x := by
  constructor
  · intro alive
    obtain ⟨positive, other, rfl⟩ := alive
    rw [tables] at positive ⊢
    split
    · next here =>
      rw [if_pos here] at positive
      omega
    · next elsewhere =>
      rw [if_neg elsewhere] at positive
      exact ⟨positive, other, rfl⟩
  · intro alive
    obtain ⟨positive, other, rfl⟩ := alive
    have elsewhere : other ≠ slot := by
      intro here
      rw [here] at positive
      omega
    exact ⟨positive, other, by rw [tables, if_neg elsewhere]⟩

end Store

/-- Closing an entry closes its descriptor and no other. -/
theorem open_of_closed {s : Node} (slot : Slot) (distinct : Distinct s) (x : Sock) :
    (s.closeConnection slot).1.Open x ↔ s.Open x ∧ x ≠ s.sock slot := by
  constructor
  · intro alive
    obtain ⟨positive, other, rfl⟩ := alive
    rw [closeConnection_sock] at positive ⊢
    split at positive
    · exact absurd positive (by decide)
    · next elsewhere =>
      rw [if_neg elsewhere]
      exact ⟨⟨positive, other, rfl⟩, fun same => elsewhere (distinct other slot positive same)⟩
  · intro both
    exact open_of_other slot both.1 both.2

/-- An outgoing connection that is open after a close is another one, and was open before. -/
theorem peer_of_closed {s : Node} (slot : Slot) (distinct : Distinct s) {i : Fin 16}
    (alive : 0 < ((s.closeConnection slot).1.peerSockets i).val) :
    (s.closeConnection slot).1.peerSockets i = s.peerSockets i ∧
      s.peerSockets i ≠ s.sock slot := by
  have stored := closeConnection_sock s slot (.peer i)
  rw [Node.sock_peer] at stored
  rw [stored] at alive ⊢
  split at alive
  · exact absurd alive (by decide)
  · next elsewhere =>
    rw [if_neg elsewhere]
    exact ⟨rfl, fun same => elsewhere (distinct (.peer i) slot alive same)⟩

/-- The connections that are left after a close lead where they led. -/
theorem leads_closeConnection (s : Node) (slot other : Slot) (worker : Nat) :
    (s.closeConnection slot).1.Leads other worker ↔ other ≠ slot ∧ s.Leads other worker := by
  have stored := closeConnection_sock s slot other
  by_cases same : other = slot
  · rw [if_pos same] at stored
    apply iff_of_false
    · intro leads
      exact ne_free_of_live leads.1 stored
    · intro both
      exact both.1 same
  · rw [if_neg same] at stored
    cases other with
    | peer i => simp only [Node.Leads, stored, same, ne_eq, not_false_eq_true, true_and]
    | inbound i =>
      rw [Node.sock_inbound, Node.sock_inbound] at stored
      simp only [Node.Leads, Node.sock_inbound, stored, same, ne_eq, not_false_eq_true, true_and,
        closeConnection_socketToId]
      apply and_congr_right
      intro live
      rw [Function.update_of_ne (ne_free_of_live live)]

/-- A task is dispatched on the target that the lookup finds in the state before. -/
theorem target_of_dispatched {s after : Node} {event : Event} {actions : List Action}
    (effect : Effect s event actions after) (call : Call) (task : Dispatch)
    (member : .dispatched call task ∈ actions) : s.findTarget task.worker = some task.fd := by
  cases effect with
  | quiet sends =>
    obtain ⟨fd, msg, same⟩ := sends _ member
    cases same
  | connected => simp at member
  | admitted => simp at member
  | failedAccept => simp at member
  | refused => simp at member
  | closed =>
    rw [closeConnection_actions] at member
    split at member <;> simp at member
  | received _ _ _ sends =>
    rcases List.mem_cons.mp member with same | later
    · cases same
    · obtain ⟨fd, msg, same⟩ := sends _ later
      cases same
  | spawned task target =>
    cases List.mem_singleton.mp member
    exact target
  | scattered tasks jobId _ _ targets =>
    rcases List.mem_cons.mp member with same | later
    · cases same
    · obtain ⟨sent, inside, same⟩ := List.mem_map.mp later
      cases same
      exact targets _ inside

/-! ## Histories -/

section History
variable {γ : Type} (observe : γ → Action → γ)

/-- Answers and reports do not reach a history that ignores sends. -/
theorem foldl_sends (ignores : ∀ seen fd msg, observe seen (.sent fd msg) = seen)
    (actions : List Action) (sends : OnlySends actions) (seen : γ) :
    actions.foldl observe seen = seen := by
  apply foldl_ignored
  intro a member earlier
  obtain ⟨fd, msg, rfl⟩ := sends a member
  exact ignores earlier fd msg

/-- Nor do tasks reach one that ignores dispatches. -/
theorem foldl_dispatched (ignores : ∀ seen call task, observe seen (.dispatched call task) = seen)
    (call : Call) (tasks : List Dispatch) (seen : γ) :
    (tasks.map (Action.dispatched call)).foldl observe seen = seen := by
  apply foldl_ignored
  intro a member earlier
  obtain ⟨task, _, rfl⟩ := List.mem_map.mp member
  exact ignores earlier call task

end History

/-! ## Steps of a run -/

/-- The state after a beacon of node `i` led to a connection. -/
def afterConnect (s : Node) (i : Fin 16) (fd : Sock) : Node :=
  { s with
    peerSockets := Function.update s.peerSockets i fd
    socketToId := Function.update s.socketToId fd (i.val : Int) }

/-- A beacon of a new node leads to an outgoing connection. -/
theorem step_connect (s : Node) (i : Fin 16) (port : Int) (fd : Sock)
    (foreign : (i.val : Int) ≠ s.myNodeId) (free : (s.peerSockets i).val = 0) (live : 0 < fd.val)
    (fresh : ∀ slot, s.sock slot ≠ fd) :
    s.Step (.beacon 12 ⟨0xCAFEBABE, i.val, port⟩ fd) [.connected i.val fd] (afterConnect s i fd) := by
  refine ⟨.inr ⟨live, fresh⟩, ?_⟩
  rw [Node.step, receiveBeacon_inside s i port fd foreign, if_pos ⟨free, live⟩]
  rfl

/-- The first connection of a node. -/
theorem step_connect_boot (myNodeId : Int) (msgBuffer : Message) (i : Fin 16) (port : Int)
    (fd : Sock) (foreign : (i.val : Int) ≠ myNodeId) (live : 0 < fd.val) :
    (Node.boot myNodeId msgBuffer).Step (.beacon 12 ⟨0xCAFEBABE, i.val, port⟩ fd)
      [.connected i.val fd] (afterConnect (.boot myNodeId msgBuffer) i fd) := by
  refine step_connect _ i port fd foreign rfl live fun slot same => ?_
  rw [sock_boot] at same
  exact ne_free_of_live live same.symm

/-- Two descriptors for concrete runs. -/
def fd5 : Sock := ⟨5, by decide⟩

def fd6 : Sock := ⟨6, by decide⟩

/-- Node 1 is connected to node 2 on descriptor 5, and to nobody else. -/
def connectedTwo : Node := afterConnect (.boot 1 .zeroed) 2 fd5

theorem connectedTwo_sock (slot : Slot) :
    connectedTwo.sock slot = if slot = .peer 2 then fd5 else .free := by
  rw [connectedTwo, afterConnect, sock_storePeer, sock_boot]

theorem step_connectTwo : (Node.boot 1 .zeroed).Step
    (.beacon 12 ⟨0xCAFEBABE, (2 : Fin 16).val, 8002⟩ fd5)
    [.connected (2 : Fin 16).val fd5] connectedTwo :=
  step_connect_boot 1 .zeroed 2 8002 fd5 (by decide) (by decide)

/-- A new connection goes to the first inbound entry if that is free. -/
theorem step_accept (s : Node) (ns : Sock) (free : (s.inboundSockets 0).val = 0)
    (live : 0 < ns.val) (fresh : ∀ slot, s.sock slot ≠ ns) :
    s.Step (.accept ns) [.accepted ns]
      { s with inboundSockets := Function.update s.inboundSockets 0 ns } := by
  refine ⟨.inr ⟨live, fresh⟩, ?_⟩
  have first : (List.finRange 16).find? (fun i => (s.inboundSockets i).val = 0) = some 0 := by
    rw [show List.finRange 16 = 0 :: (List.finRange 16).tail from by decide]
    exact List.find?_cons_of_pos (by simpa using free)
  simp only [Node.step, Node.acceptConnection, first, if_pos live]

/-- A message that asks for nothing is only noted. -/
theorem step_read (s : Node) (slot : Slot) (ctx : ReadContext) (piece : List UInt8)
    (nonempty : 0 < piece.length) (fits : piece.length ≤ 4099) (serviced : slot.serviced = true)
    (live : 0 < (s.sock slot).val)
    (asksNothing : (s.messageRead piece fits).type = .heartbeat ∨
      (s.messageRead piece fits).type = .taskResult) :
    s.Step (.read slot (.data piece nonempty fits) ctx)
      [.received slot (s.sock slot) (s.messageRead piece fits)]
      (s.afterRead (s.sock slot) (s.messageRead piece fits)) := by
  refine ⟨trivial, ?_⟩
  simp only [Node.step, serviced, if_true, Node.handleSock, if_pos live]
  rcases asksNothing with type | type
  · simp only [Node.processMessage, type, Node.forwardMessage, handleMessage, bind, Except.bind,
      List.map_nil]
  · simp only [Node.processMessage, type, bind, Except.bind]

/-- A read that returns a whole message leaves nothing of the old buffer. -/
theorem messageRead_whole (s : Node) (msg : Message) :
    s.messageRead msg.octets.cells msg.octets.size.le = msg := by
  have stored := s.msgBuffer.octets.overlay_full msg.octets.cells msg.octets.size
  rw [Node.messageRead, Block.ext_cells stored, Message.view_octets]

/-- The read of a whole message. -/
def readWhole (slot : Slot) (msg : Message) (ctx : ReadContext) : Event :=
  .read slot (.data msg.octets.cells (by simp [msg.octets.size]) msg.octets.size.le) ctx

/-- A whole message that asks for nothing. -/
theorem step_receive (s : Node) (slot : Slot) (ctx : ReadContext) (msg : Message)
    (serviced : slot.serviced = true) (live : 0 < (s.sock slot).val)
    (asksNothing : msg.type = .heartbeat ∨ msg.type = .taskResult) :
    s.Step (.read slot (.data msg.octets.cells (by simp [msg.octets.size]) msg.octets.size.le) ctx)
      [.received slot (s.sock slot) msg] (s.afterRead (s.sock slot) msg) := by
  have step := step_read s slot ctx msg.octets.cells (by simp [msg.octets.size])
    msg.octets.size.le serviced live (by rwa [messageRead_whole])
  rwa [messageRead_whole] at step

/-- A report is noted in the entry of its sender. -/
theorem step_report (s : Node) (slot : Slot) (ctx : ReadContext) (msg : Message)
    (serviced : slot.serviced = true) (live : 0 < (s.sock slot).val)
    (report : msg.type = .statusReport) :
    s.Step (readWhole slot msg ctx) [.received slot (s.sock slot) msg]
      { s.afterRead (s.sock slot) msg with
        clusterStatus := reported s.clusterStatus msg.senderId (.view msg.payload) } := by
  refine ⟨trivial, ?_⟩
  simp only [readWhole, Node.step, serviced, if_true, Node.handleSock, if_pos live,
    messageRead_whole, Node.processMessage, report, Node.forwardMessage,
    handleMessage_report _ _ _ report]
  rfl

/-- Node 2 reports free memory. -/
def reportTwo : Message := (Node.boot 2 .zeroed).statusReport 0 0 .zeroed

/-- Node 1 is connected to node 2, which has reported free memory. -/
def readyTwo : Node :=
  { connectedTwo.afterRead fd5 reportTwo with
    clusterStatus := reported connectedTwo.clusterStatus 2 ⟨0, 100, 0⟩ }

theorem step_reportTwo : connectedTwo.Step (readWhole (.peer 2) reportTwo .refusing)
    [.received (.peer 2) fd5 reportTwo] readyTwo := by
  have step := step_report connectedTwo (.peer 2) .refusing reportTwo rfl (by decide) rfl
  have read : NodeStatus.view reportTwo.payload = ⟨0, 100, 0⟩ := by decide
  rwa [read] at step

/-- There node 2 is chosen, and it has a target. -/
theorem readyTwo_winner : findBestNode readyTwo.clusterStatus readyTwo.myNodeId = some 2 := by
  decide

theorem readyTwo_target : readyTwo.findTarget 2 = some fd5 := by decide

/-- A failed read closes the connection. -/
theorem step_close (s : Node) (slot : Slot) (ctx : ReadContext) (serviced : slot.serviced = true)
    (live : 0 < (s.sock slot).val) :
    s.Step (.read slot .failed ctx) (s.closeConnection slot).2 (s.closeConnection slot).1 := by
  refine ⟨trivial, ?_⟩
  simp only [Node.step, serviced, if_true, Node.handleSock, if_pos live, dropConnection_ok]

end VelumOS.Spec
