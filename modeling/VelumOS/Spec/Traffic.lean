import VelumOS.Spec.Answers
import VelumOS.Spec.Connections
import VelumOS.Spec.Requests

/-!
# Traffic of a node

Which messages the steps of a node hand to `send`, and what they do to its outgoing
connections. A node sends status reports, `EXECUTE_WASM` requests and results, each with
the low 16 bits of its id; a result only when it has read a request.
-/
namespace VelumOS.Spec
open VelumOS.Source

/-- The message that an action hands to `send`. -/
def handed : Action → Option (Sock × Message)
  | .sent fd msg => some (fd, msg)
  | .dispatched _ task => some (task.fd, task.msg)
  | _ => none

def IsRequest (msg : Message) : Prop :=
  msg.type = .taskRequest ∧ (TaskHeader.view msg.payload).opCode = .executeWasm

/-- The messages that nodes send to each other. -/
def Ours (msg : Message) : Prop :=
  msg.type = .statusReport ∨ IsRequest msg ∨ msg.type = .taskResult

/-- The messages that only answer a request. -/
def IsReply (msg : Message) : Prop := msg.type = .taskResult ∨ msg.type = .taskProgress

/-- The events of a node to which no link contributes. -/
def Alone : Event → Prop
  | .heartbeat .. | .spawnWasm .. | .distributed .. => True
  | .accept ns => ns = .failed
  | _ => False

section Node
variable {s after : Node} {actions : List Action}

/-- A scattered or single request is one of ours. -/
theorem request_of_spawnWasm {ctx : SpawnContext} {file : Option File} {func : List UInt8}
    {args : List (List UInt8)}
    (success : velumSpawnWasm ctx file func args s = .ok (after, actions)) (call : Call)
    (task : Dispatch) (member : .dispatched call task ∈ actions) :
    task.msg.senderId = UInt16.ofInt s.myNodeId ∧ IsRequest task.msg := by
  cases file with
  | none =>
    cases success
    cases member
  | some f =>
    obtain ⟨buffer, built⟩ := built_of_dispatched success call task member
    obtain ⟨sender, type, _⟩ := wasmRequest_built built
    exact ⟨sender, type, by rw [header_of_built built]⟩

theorem request_of_distributed {ctx : SpawnContext} {file : Option File} {func : List UInt8}
    {start stop : Int32}
    (success : velumSpawnWasmDistributed ctx file func start stop s = .ok (after, actions))
    (call : Call) (task : Dispatch) (member : .dispatched call task ∈ actions) :
    task.msg.senderId = UInt16.ofInt s.myNodeId ∧ IsRequest task.msg := by
  by_cases scatters : Scatters s file
  · obtain ⟨tasks, rfl, _, requests, _⟩ := distributed_requests success scatters
    rcases List.mem_cons.mp member with same | later
    · cases same
    · obtain ⟨sent, inside, same⟩ := List.mem_map.mp later
      cases same
      have request := requests task inside
      exact ⟨request.sender, request.type, by rw [request.header]⟩
  · obtain ⟨_, rfl⟩ := distributed_idle success scatters
    cases member

/-- An accept changes the inbound table at most, and sends nothing. -/
theorem accept_cases {ns : Sock} (step : s.Step (.accept ns) actions after) :
    after.peerSockets = s.peerSockets ∧ ∀ a ∈ actions, a = .accepted ns ∨ a = .closed ns := by
  have success : s.acceptConnection ns = (after, actions) := Except.ok.inj step.2
  unfold Node.acceptConnection at success
  split at success
  · cases success
    refine ⟨rfl, fun a member => ?_⟩
    split at member
    · exact .inl (List.mem_singleton.mp member)
    · cases member
  · cases success
    exact ⟨rfl, fun a member => .inr (List.mem_singleton.mp member)⟩

/-- On its own a node sends reports and requests in its name. -/
theorem handed_of_alone {event : Event} (alone : Alone event) (step : s.Step event actions after)
    {a : Action} (member : a ∈ actions) {fd : Sock} {msg : Message}
    (sent : handed a = some (fd, msg)) :
    msg.senderId = UInt16.ofInt s.myNodeId ∧ (msg.type = .statusReport ∨ IsRequest msg) := by
  have success := step.2
  cases event with
  | heartbeat cpu queue old =>
    cases success
    rcases List.mem_append.mp member with outgoing | inbound
    · obtain ⟨i, _, rfl⟩ := List.mem_map.mp outgoing
      cases sent
      exact ⟨rfl, .inl rfl⟩
    · obtain ⟨i, _, rfl⟩ := List.mem_map.mp inbound
      cases sent
      exact ⟨rfl, .inl rfl⟩
  | beacon => exact alone.elim
  | accept ns =>
    rcases (accept_cases step).2 a member with rfl | rfl
    · cases sent
    · cases sent
  | read => exact alone.elim
  | spawnWasm ctx file func args =>
    rcases velumSpawnWasm_cases ctx file func args s after actions success with
      ⟨_, rfl⟩ | ⟨winner, target, request, _, _, _, rfl⟩
    · cases member
    · obtain ⟨sender, asks⟩ := request_of_spawnWasm success _ _ List.mem_cons_self
      cases List.mem_singleton.mp member
      cases sent
      exact ⟨sender, .inr asks⟩
  | distributed ctx file func start stop =>
    rcases velumSpawnWasmDistributed_cases ctx file func start stop s after actions success with
      ⟨_, rfl⟩ | ⟨tasks, jobId, _, rfl, _⟩
    · cases member
    · rcases List.mem_cons.mp member with rfl | later
      · cases sent
      · obtain ⟨task, _, rfl⟩ := List.mem_map.mp later
        obtain ⟨sender, asks⟩ := request_of_distributed success _ task member
        cases sent
        exact ⟨sender, .inr asks⟩

/-- `handle_message` sends replies only. -/
theorem handleMessage_replies {ctx : TaskContext} {myId : Int} {status next : ClusterStatus}
    {msg : Message} {sent : List Message}
    (success : handleMessage ctx myId status msg = .ok (next, sent)) :
    ∀ reply ∈ sent, IsReply reply := by
  by_cases request : msg.type = .taskRequest
  · obtain ⟨answers, answered, answer, _⟩ := handleMessage_answered ctx myId status msg request
    cases answered.symm.trans success
    obtain ⟨progress, last, rfl, type, others⟩ := answer.closed
    intro reply member
    rcases List.mem_append.mp member with earlier | final
    · exact .inr (others reply earlier)
    · rw [List.mem_singleton.mp final]
      exact .inl type
  · by_cases report : msg.type = .statusReport
    · rw [handleMessage_report ctx myId status report] at success
      cases success
      simp
    · have ignored : handleMessage ctx myId status msg = .ok (status, []) := by
        simp only [handleMessage]
      cases ignored.symm.trans success
      simp

/-- What follows the note of a message are replies. -/
theorem processMessage_replies {ctx : ReadContext} {fd : Sock} {msg : Message}
    (success : s.processMessage ctx fd msg = .ok (after, actions)) {target : Sock} {reply : Message}
    (member : .sent target reply ∈ actions) : IsReply reply := by
  have forwarded (success : s.forwardMessage ctx fd msg = .ok (after, actions)) :
      IsReply reply := by
    obtain ⟨⟨status, replies⟩, handled, success⟩ := bind_success success
    cases success
    obtain ⟨answer, inside, same⟩ := List.mem_map.mp member
    cases same
    exact handleMessage_replies handled reply inside
  unfold Node.processMessage at success
  split at success
  · split at success
    · obtain ⟨sends, executed, success⟩ := bind_success success
      cases success
      obtain ⟨_, _, rfl⟩ := executeWasm_cases ctx s msg _ executed
      split at member
      · cases member
      · cases List.mem_singleton.mp member
        exact .inl rfl
    · exact forwarded success
  · cases success
    cases member
  · cases success
    cases member
  · exact forwarded success

/-- Outside the heartbeat a node sends nothing but requests and replies. -/
theorem reply_of_step {event : Event} (step : s.Step event actions after)
    (other : ∀ cpu queue old, event ≠ .heartbeat cpu queue old) {fd : Sock} {msg : Message}
    (member : .sent fd msg ∈ actions) : IsReply msg := by
  have success := step.2
  cases event with
  | heartbeat cpu queue old => exact absurd rfl (other cpu queue old)
  | beacon =>
    rcases receiveBeacon_cases success with ignored | ⟨_, _, _, _, opened⟩
    · cases ignored
      cases member
    · cases opened
      simp at member
  | accept ns =>
    rcases (accept_cases step).2 _ member with same | same
    · cases same
    · cases same
  | read slot input ctx =>
    simp only [Node.step] at success
    split at success
    · by_cases live : 0 < (s.sock slot).val
      · cases input with
        | failed =>
          simp only [Node.handleSock, if_pos live, dropConnection_ok, Except.ok.injEq] at success
          have performed : (s.closeConnection slot).2 = actions := by rw [success]
          rw [← performed, closeConnection_actions] at member
          split at member <;> simp at member
        | data piece nonempty fits =>
          obtain ⟨sends, rfl, processed⟩ := handleSock_data ctx s after slot piece nonempty fits
            actions live success
          rcases List.mem_cons.mp member with same | later
          · cases same
          · exact processMessage_replies processed later
      · simp only [Node.handleSock, if_neg live] at success
        cases success
        cases member
    · cases success
      cases member
  | spawnWasm ctx file func args =>
    rcases velumSpawnWasm_cases ctx file func args s after actions success with
      ⟨_, rfl⟩ | ⟨_, _, _, _, _, _, rfl⟩
    · cases member
    · simp at member
  | distributed ctx file func start stop =>
    rcases velumSpawnWasmDistributed_cases ctx file func start stop s after actions success with
      ⟨_, rfl⟩ | ⟨_, _, _, rfl, _⟩
    · cases member
    · simp at member

/-- On its own a node neither opens nor closes an outgoing connection. -/
theorem peers_of_alone {event : Event} (alone : Alone event) (step : s.Step event actions after) :
    after.peerSockets = s.peerSockets ∧ ∀ fd, .closed fd ∈ actions → fd.val ≤ 0 := by
  have success := step.2
  cases event with
  | heartbeat cpu queue old =>
    cases success
    refine ⟨rfl, fun fd member => ?_⟩
    obtain ⟨_, _, same⟩ := heartbeat_onlySends s cpu queue old _ member
    cases same
  | beacon => exact alone.elim
  | accept ns =>
    obtain ⟨peers, kinds⟩ := accept_cases step
    refine ⟨peers, fun fd member => ?_⟩
    rcases kinds _ member with same | same
    · cases same
    · cases same
      rw [(alone : ns = .failed)]
      decide
  | read => exact alone.elim
  | spawnWasm ctx file func args =>
    rcases velumSpawnWasm_cases ctx file func args s after actions success with
      ⟨rfl, rfl⟩ | ⟨winner, target, request, _, _, rfl, rfl⟩
    · exact ⟨rfl, by simp⟩
    · exact ⟨rfl, by simp⟩
  | distributed ctx file func start stop =>
    rcases velumSpawnWasmDistributed_cases ctx file func start stop s after actions success with
      ⟨rfl, rfl⟩ | ⟨tasks, jobId, _, rfl, _, _, rfl⟩
    · exact ⟨rfl, by simp⟩
    · exact ⟨(scatter_sameTables s jobId _ tasks).peerSockets, by simp⟩

/-- A message of ours is noted, and a request is run and answered. -/
theorem read_cases {slot : Slot} {ctx : ReadContext} {msg : Message} (serviced : slot.serviced)
    (live : 0 < (s.sock slot).val) (ours : Ours msg)
    (step : s.Step (readWhole slot msg ctx) actions after) :
    (msg.type ≠ .taskRequest ∧ actions = [.received slot (s.sock slot) msg]) ∨
    (IsRequest msg ∧ ∃ value, runWasmRequest ctx msg.payload = .ok value ∧
      actions = .received slot (s.sock slot) msg :: match s.replyTarget msg.senderId with
        | none => []
        | some fd => [.sent fd (resultMessage (ctx.task.stack 0) s.myNodeId .taskResult
            ⟨(TaskHeader.view msg.payload).jobId, value, 1⟩)]) := by
  have success := step.2
  rw [readWhole, Node.step, if_pos serviced] at success
  obtain ⟨sends, rfl, processed⟩ := handleSock_data ctx s after slot _ _ _ actions live success
  rw [messageRead_whole] at processed ⊢
  rcases ours with report | ⟨type, op⟩ | result
  · refine .inl ⟨by simp [report], ?_⟩
    simp only [Node.processMessage, report, Node.forwardMessage,
      handleMessage_report _ _ _ report] at processed
    cases processed
    rfl
  · simp only [Node.processMessage, type, op, if_true] at processed
    obtain ⟨executed, run, processed⟩ := bind_success processed
    simp only [Except.ok.injEq, Prod.mk.injEq] at processed
    obtain ⟨_, rfl⟩ := processed
    obtain ⟨value, ran, replies⟩ := executeWasm_cases ctx _ msg executed run
    exact .inr ⟨⟨type, op⟩, value, ran, by rw [replies]; rfl⟩
  · refine .inl ⟨by simp [result], ?_⟩
    simp only [Node.processMessage, result] at processed
    cases processed
    rfl

/-- The node connects to the id in the beacon. -/
theorem connected_cases {len : Int} {b : Beacon} {fd : Sock} {nodeId : Nat}
    (step : s.Step (.beacon len b fd) [.connected nodeId fd] after) :
    ∃ k : Fin 16, (k.val : Int) = b.nodeId ∧ (∀ slot, s.sock slot ≠ fd) ∧
      after = afterConnect s k fd := by
  rcases receiveBeacon_cases step.2 with ignored | ⟨k, named, _, live, opened⟩
  · cases ignored
  · cases opened
    refine ⟨k, named.symm, ?_, rfl⟩
    rcases step.1 with rfl | ⟨_, fresh⟩
    · exact absurd live (by decide)
    · exact fresh

/-- Reading a message leaves the outgoing connections as they are. -/
theorem peers_of_read {slot : Slot} {ctx : ReadContext} {msg : Message}
    (step : s.Step (readWhole slot msg ctx) actions after) :
    after.peerSockets = s.peerSockets ∧ ∀ fd, .closed fd ∉ actions := by
  cases step.effect with
  | quiet sends =>
    refine ⟨rfl, fun fd member => ?_⟩
    obtain ⟨_, _, same⟩ := sends _ member
    cases same
  | received status live serviced sends =>
    refine ⟨rfl, fun fd member => ?_⟩
    rcases List.mem_cons.mp member with same | later
    · cases same
    · obtain ⟨_, _, same⟩ := sends _ later
      cases same

/-- A failed read closes the connection of its entry and opens none. -/
theorem failed_cases {slot : Slot} {ctx : ReadContext} (distinct : Distinct s)
    (serviced : slot.serviced) (live : 0 < (s.sock slot).val)
    (step : s.Step (.read slot .failed ctx) actions after) :
    (∀ k, 0 < (after.peerSockets k).val → after.peerSockets k = s.peerSockets k) ∧
      (∀ a ∈ actions, handed a = none) ∧
      ∀ fd, .closed fd ∈ actions → ∀ k, 0 < (after.peerSockets k).val → after.peerSockets k ≠ fd := by
  cases step.effect with
  | quiet _ idle => exact absurd ⟨serviced, live⟩ (idle slot .failed ctx rfl)
  | closed =>
    refine ⟨fun k open_ => (peer_of_closed slot distinct open_).1, fun a member => ?_,
      fun fd member k open_ => ?_⟩
    · rw [closeConnection_actions] at member
      split at member
      · rw [List.mem_singleton.mp member]
        rfl
      · rcases List.mem_cons.mp member with rfl | later
        · rfl
        · rw [List.mem_singleton.mp later]
          rfl
    · rw [closeConnection_actions] at member
      have same : fd = s.sock slot := by
        rcases List.mem_cons.mp member with same | later
        · exact Action.closed.inj same
        · split at later <;> simp at later
      obtain ⟨kept, elsewhere⟩ := peer_of_closed slot distinct open_
      rw [same, kept]
      exact elsewhere

/-- A step keeps the node's id. -/
theorem myNodeId_of_effect {event : Event} (effect : Effect s event actions after) :
    after.myNodeId = s.myNodeId := by
  cases effect with
  | closed => exact closeConnection_myNodeId s _
  | @scattered _ _ _ start stop tasks jobId =>
    exact (scatter_sameTables s jobId (stop - start) tasks).myNodeId
  | _ => rfl

end Node

end VelumOS.Spec
