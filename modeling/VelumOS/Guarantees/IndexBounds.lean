import VelumOS.Spec.Answers
import VelumOS.Spec.Connections

/-!
# Indices made from network-supplied ids

The ids in beacons and messages index `peer_sockets` (16 entries) and `cluster_status`
(17 entries); an index outside its table is a fault of the model. The guards on a
message's `sender_id` and on the ids of busy and dead nodes keep them inside. The guard
on a beacon's `node_id` has no lower bound: a negative id leaves the table, and id 0
names an entry that the engine does not service.
-/
namespace VelumOS.Guarantees.IndexBounds
open VelumOS.Source VelumOS.Spec

/-- The call uses no index outside its table. -/
def InRange {α : Type} (result : Except Fault α) : Prop := result ≠ .error .indexOutOfRange

theorem InRange.of_ok {α : Type} {result : Except Fault α} {value : α}
    (returned : result = .ok value) : InRange result := by
  rw [InRange, returned]
  exact nofun

/-- A sequence stays in range if all its steps do. -/
theorem InRange.bind {α β : Type} {step : Except Fault α} {next : α → Except Fault β}
    (first : InRange step) (rest : ∀ value, InRange (next value)) : InRange (step >>= next) := by
  cases step with
  | error fault => exact fun same => first (congrArg Except.error (Except.error.inj same))
  | ok value => exact rest value

/-! ## Received messages -/

/-- `handle_message` returns for every message. -/
theorem handleMessage_returns (ctx : TaskContext) (myId : Int) (status : ClusterStatus)
    (msg : Message) : ∃ after sent, handleMessage ctx myId status msg = .ok (after, sent) := by
  cases type : msg.type with
  | statusReport => exact ⟨_, _, handleMessage_report ctx myId status type⟩
  | taskRequest =>
    obtain ⟨sent, answered, _⟩ := handleMessage_answered ctx myId status msg type
    exact ⟨status, sent, answered⟩
  | _ => exact ⟨status, [], by simp only [handleMessage, type]⟩

theorem readCString_inRange (region : Region) (memory : List UInt8) :
    InRange (readCString region memory) := by
  unfold readCString
  split <;> exact nofun

/-- The sandbox indexes neither table. -/
theorem runWasmRequest_inRange (ctx : ReadContext) (payload : Payload) :
    InRange (runWasmRequest ctx payload) := by
  have reads (memory : List UInt8) (binSize : UInt32) : InRange (readBinary memory binSize) := by
    unfold readBinary
    split <;> exact nofun
  have parses (argc : Nat) (memory : List UInt8) : InRange (parseArgs argc memory) := by
    rw [parseArgs_eq]
    split <;> exact nofun
  have results (type : FuncType) (result : RunResult) : InRange (sandboxResult type result) := by
    unfold sandboxResult
    split
    · exact nofun
    · exact nofun
    · split <;> exact nofun
  refine (readCString_inRange _ _).bind fun _ => ?_
  refine (readCString_inRange _ _).bind fun name => ?_
  split
  · exact nofun
  split
  · exact nofun
  refine (reads _ _).bind fun slice => ?_
  split
  · exact nofun
  split
  · exact nofun
  split
  · exact nofun
  · exact (parses _ _).bind fun intArgs => results _ _

/-- `handle_sock` stays in range whatever it reads. -/
theorem handleSock_inRange (ctx : ReadContext) (s : Node) (slot : Slot) (input : ReadResult) :
    InRange (s.handleSock ctx slot input) := by
  have forwards (s : Node) (fd : Sock) (msg : Message) : InRange (s.forwardMessage ctx fd msg) := by
    obtain ⟨after, sent, returned⟩ := handleMessage_returns ctx.task s.myNodeId s.clusterStatus msg
    exact (InRange.of_ok returned).bind fun _ => .of_ok rfl
  have executes (s : Node) (msg : Message) : InRange (s.executeWasm ctx msg) := by
    refine (runWasmRequest_inRange ctx msg.payload).bind fun resVal => ?_
    refine (InRange.of_ok (replySock_ok s msg.senderId)).bind fun target => ?_
    cases target <;> exact .of_ok rfl
  have processes (s : Node) (fd : Sock) (msg : Message) : InRange (s.processMessage ctx fd msg) := by
    unfold Node.processMessage
    split
    · split
      · exact (executes s msg).bind fun _ => .of_ok rfl
      · exact forwards s fd msg
    · exact .of_ok rfl
    · exact .of_ok rfl
    · exact forwards s fd msg
  unfold Node.handleSock
  split
  · cases input with
    | failed => exact .of_ok (dropConnection_ok s slot)
    | data piece nonempty fits => exact (processes _ _ _).bind fun _ => .of_ok rfl
  · exact .of_ok rfl

/-! ## Beacons -/

/-- The beacon's index is in range, and an entry that it changes is serviced. -/
def BeaconSafe (s : Node) (b : Beacon) (sock : Sock) : Prop :=
  InRange (s.receiveBeacon 12 b sock) ∧
    ∀ after actions, s.receiveBeacon 12 b sock = .ok (after, actions) →
      ∀ i, after.peerSockets i ≠ s.peerSockets i → (Slot.peer i).serviced = true

/-- The id of a beacon is positive, or the node's own, or it is 0 and no connection is
opened for it. -/
def GoodId (s : Node) (b : Beacon) (sock : Sock) : Prop :=
  0 < b.nodeId ∨ b.nodeId = s.myNodeId ∨
    (b.nodeId = 0 ∧ ((s.peerSockets 0).val ≠ 0 ∨ sock.val ≤ 0))

/-- A beacon with an id that is not followed up does nothing. -/
theorem receiveBeacon_ignored (s : Node) (b : Beacon) (sock : Sock)
    (ignored : ¬ (b.nodeId ≠ s.myNodeId ∧ b.nodeId < 16)) :
    s.receiveBeacon 12 b sock = .ok (s, []) := by
  simp only [Node.receiveBeacon, if_neg ignored, ite_self]

/-- A negative id passes the guard and leaves the table. -/
theorem receiveBeacon_negative (s : Node) (nodeId port : Int) (sock : Sock)
    (foreign : nodeId ≠ s.myNodeId) (negative : nodeId < 0) :
    s.receiveBeacon 12 ⟨0xCAFEBABE, nodeId, port⟩ sock = .error .indexOutOfRange := by
  simp only [Node.receiveBeacon, and_self, if_true]
  rw [if_pos ⟨foreign, by omega⟩, (readEntry_fault_iff s.peerSockets nodeId).mpr (by omega)]
  rfl

/-- An id inside the table is safe unless it opens a connection in entry 0. -/
theorem beaconSafe_inside (s : Node) (i : Fin 16) (port : Int) (sock : Sock)
    (foreign : (i.val : Int) ≠ s.myNodeId) :
    BeaconSafe s ⟨0xCAFEBABE, i.val, port⟩ sock ↔
      ¬ (i.val = 0 ∧ (s.peerSockets i).val = 0 ∧ 0 < sock.val) := by
  have result := receiveBeacon_inside s i port sock foreign
  by_cases opened : (s.peerSockets i).val = 0 ∧ 0 < sock.val
  · rw [if_pos opened] at result
    have changes (j : Fin 16) : Function.update s.peerSockets i sock j ≠ s.peerSockets j ↔ j = i := by
      constructor
      · intro changed
        by_contra elsewhere
        exact changed (Function.update_of_ne elsewhere ..)
      · rintro rfl same
        rw [Function.update_self] at same
        rw [same] at opened
        omega
    constructor
    · intro safe zero
      have serviced := safe.2 _ _ result i ((changes i).mpr rfl)
      exact absurd zero.1 (of_decide_eq_true serviced)
    · intro harmless
      refine ⟨.of_ok result, fun after actions success j changed => ?_⟩
      cases result.symm.trans success
      rw [(changes j).mp changed]
      exact decide_eq_true fun zero => harmless ⟨zero, opened⟩
  · rw [if_neg opened] at result
    apply iff_of_true
    · refine ⟨.of_ok result, fun after actions success j changed => ?_⟩
      cases result.symm.trans success
      exact absurd rfl changed
    · exact fun all => opened all.2

theorem beaconSafe_iff (s : Node) (nodeId port : Int) (sock : Sock) :
    BeaconSafe s ⟨0xCAFEBABE, nodeId, port⟩ sock ↔ GoodId s ⟨0xCAFEBABE, nodeId, port⟩ sock := by
  by_cases followed : nodeId ≠ s.myNodeId ∧ nodeId < 16
  · rcases lt_or_ge nodeId 0 with negative | natural
    · apply iff_of_false
      · intro safe
        exact safe.1 (receiveBeacon_negative s nodeId port sock followed.1 negative)
      · simp only [GoodId]
        omega
    · obtain ⟨n, rfl⟩ := Int.eq_ofNat_of_zero_le natural
      obtain ⟨i, rfl⟩ : ∃ i : Fin 16, i.val = n := ⟨⟨n, by omega⟩, rfl⟩
      rw [beaconSafe_inside s i port sock followed.1]
      simp only [GoodId, Int.natCast_eq_zero]
      by_cases zero : i = 0
      · subst zero
        have foreign := followed.1
        generalize (s.peerSockets 0).val = entry
        simp only [Fin.val_zero, Nat.cast_zero, true_and] at foreign ⊢
        omega
      · have positive : i.val ≠ 0 := fun same => zero (Fin.ext same)
        omega
  · have result := receiveBeacon_ignored s ⟨0xCAFEBABE, nodeId, port⟩ sock followed
    apply iff_of_true
    · refine ⟨.of_ok result, fun after actions success i changed => ?_⟩
      cases result.symm.trans success
      exact absurd rfl changed
    · simp only [GoodId]
      omega

/-! ## All ids -/

/-- Every index that the engine makes from a beacon, from a message or from the id of a
busy or dead node is in range, and a connection opened for the beacon is serviced. -/
structure IdsSafe (s : Node) (b : Beacon) (sock : Sock) (msg : Message) (closed : Sock) : Prop where
  beacon : BeaconSafe s b sock
  message : ∀ ctx, InRange (handleMessage ctx s.myNodeId s.clusterStatus msg)
  reply : InRange (s.replySock msg.senderId)
  dead : InRange (handleDisconnect s.clusterStatus (s.socketToId closed))
  busy : ∀ nodeId, InRange (markNodeBusy s.clusterStatus nodeId)
  read : ∀ ctx slot input, InRange (s.handleSock ctx slot input)

/-- For every state, beacon of the right size and magic, result of the connect, message
and closed descriptor, the indices are safe exactly when the beacon's id is good. -/
theorem ids_safe_iff (s : Node) (nodeId tcpPort : Int32) (sock : Sock) (msg : Message)
    (closed : Sock) : IdsSafe s ⟨0xCAFEBABE, nodeId.toInt, tcpPort.toInt⟩ sock msg closed ↔
      GoodId s ⟨0xCAFEBABE, nodeId.toInt, tcpPort.toInt⟩ sock := by
  rw [← beaconSafe_iff]
  constructor
  · exact IdsSafe.beacon
  · intro safe
    refine ⟨safe, fun ctx => ?_, .of_ok (replySock_ok s msg.senderId),
      .of_ok (handleDisconnect_ok _ _), fun nodeId => .of_ok (markNodeBusy_ok _ nodeId),
      fun ctx => handleSock_inRange ctx s⟩
    obtain ⟨after, sent, returned⟩ := handleMessage_returns ctx s.myNodeId s.clusterStatus msg
    exact .of_ok returned

/-- A beacon of node -1 indexes in front of the table. -/
theorem negative_id_unsafe : ¬ ∀ (s : Node) (nodeId tcpPort : Int32) (sock : Sock)
    (msg : Message) (closed : Sock),
    IdsSafe s ⟨0xCAFEBABE, nodeId.toInt, tcpPort.toInt⟩ sock msg closed := by
  intro always
  have safe := always (.boot 1 .zeroed) (-1) 8000 fd5 .zeroed fd5
  exact safe.beacon.1 (receiveBeacon_negative _ (-1) _ fd5 (by decide) (by decide))

end VelumOS.Guarantees.IndexBounds
