import VelumOS.Spec.Connections
import VelumOS.Spec.Requests
import VelumOS.Spec.Scheduling

/-!
# Reaching the chosen worker

The scheduler chooses a worker from `cluster_status`; its request leaves through the
socket tables. What ties the two together is that a report stays in the status table
only while a connection to the reporting node is open: a close resets the report of
the node that the connection is mapped to. This holds for a network in which each
connection carries one sender id.
-/
namespace VelumOS.Guarantees.WorkerReachable
open VelumOS.Source VelumOS.Spec Base.Runs

/-- The id of the node at the other end of each connection, where it is known. -/
abbrev FarEnds := Sock → Option Nat

/-- An outgoing connection is opened for an id; an inbound one has that of its messages. -/
def identify (far : FarEnds) : Action → FarEnds
  | .accepted fd => Function.update far fd none
  | .connected nodeId fd => Function.update far fd (some nodeId)
  | .received _ fd msg => Function.update far fd (some msg.senderId.toNat)
  | .closed fd => Function.update far fd none
  | _ => far

/-- The sender id of a message is the one its connection is known to have. -/
def OneSender (t : Transition (Node × FarEnds) Event Action) : Prop :=
  ∀ slot fd msg, .received slot fd msg ∈ t.actions →
    t.before.2 fd = none ∨ t.before.2 fd = some msg.senderId.toNat

/-- A worker that the scheduler chooses has a connection mapped to it and a target, and
a dispatch call that returns has sent it a request. -/
def ChosenReached (s : Node) : Prop :=
  ∀ worker, findBestNode s.clusterStatus s.myNodeId = some worker →
    (∃ fd, s.Open fd ∧ s.socketToId fd = worker) ∧ (s.findTarget worker).isSome ∧
    ∀ ctx f func args after actions, f.fsize ≤ 2000 →
      velumSpawnWasm ctx (some f) func args s = .ok (after, actions) →
      ∃ fd msg, s.findTarget worker = some fd ∧
        actions = [.dispatched .spawnWasm ⟨worker, fd, msg⟩]

/-- Known connections are mapped to their node, an outgoing one is known from the start,
and a node with free memory in the status table has an open connection. -/
structure Linked (s : Node) (far : FarEnds) : Prop where
  distinct : Distinct s
  mapped : ∀ fd id, s.Open fd → far fd = some id → s.socketToId fd = id
  peers : ∀ i, 0 < (s.peerSockets i).val → far (s.peerSockets i) = some i.val
  reported : ∀ w : Fin 17, w ≠ 0 → 0 < (s.clusterStatus w).ramFreeKb.toNat →
    ∃ fd, s.Open fd ∧ far fd = some w.val

/-! ## Where the chosen node is -/

/-- An open connection that is known to lead to a node leads to it. -/
theorem Linked.leads {s : Node} {far : FarEnds} {fd : Sock} {worker : Nat} (linked : Linked s far)
    (alive : s.Open fd) (known : far fd = some worker) : ∃ slot, s.Leads slot worker := by
  have mapped := linked.mapped fd worker alive known
  obtain ⟨live, slot, rfl⟩ := alive
  refine ⟨slot, live, ?_⟩
  cases slot with
  | peer i =>
    have opened := linked.peers i live
    rw [Node.sock_peer] at known
    exact Option.some.inj (opened.symm.trans known)
  | inbound i => exact mapped

theorem Linked.chosenReached {s : Node} {far : FarEnds} (linked : Linked s far) :
    ChosenReached s := by
  intro worker chosen
  obtain ⟨i, rfl, ⟨nonzero, _, memory⟩, _⟩ := (findBestNode_eq_some_iff _ _ worker).mp chosen
  obtain ⟨fd, alive, known⟩ := linked.reported i nonzero memory
  obtain ⟨slot, leads⟩ := linked.leads alive known
  have found := s.findTarget_isSome i.val slot leads
  refine ⟨⟨fd, alive, linked.mapped fd i.val alive known⟩, found, ?_⟩
  intro ctx f func args after actions small success
  obtain ⟨target, found⟩ := Option.isSome_iff_exists.mp found
  obtain ⟨_, msg, _, sent⟩ := velumSpawnWasm_sends small chosen found success
  exact ⟨target, msg, found, sent⟩

/-! ## What a step does to the status table -/

/-- A report that is left after a close was there before, and is not that of the node
the connection was mapped to. -/
theorem report_of_closed {s : Node} {slot : Slot} {w : Fin 17} (nonzero : w ≠ 0)
    (memory : 0 < ((s.closeConnection slot).1.clusterStatus w).ramFreeKb.toNat) :
    0 < (s.clusterStatus w).ramFreeKb.toNat ∧ s.socketToId (s.sock slot) ≠ w.val := by
  have positive : 0 < w.val := Nat.pos_of_ne_zero fun zero => nonzero (Fin.ext zero)
  have bound := w.isLt
  rw [closeConnection_clusterStatus] at memory
  split at memory
  · exact ⟨memory, by omega⟩
  · rw [withoutNode_apply] at memory
    split at memory
    · exact absurd memory (by decide)
    · next other => exact ⟨memory, fun same => other ⟨by omega, same⟩⟩

/-! ## The link is kept -/

section Keeps
variable {s after : Node} {far : FarEnds}

theorem linked_boot (myNodeId : Int) (msgBuffer : Message) :
    Linked (.boot myNodeId msgBuffer) fun _ => none where
  distinct := distinct_boot myNodeId msgBuffer
  mapped _ _ _ known := by cases known
  peers _ live := absurd live (lt_irrefl 0)
  reported _ _ memory := absurd memory (lt_irrefl 0)

/-- A state with the same tables and the same free memory is linked. -/
theorem Linked.congr (linked : Linked s far) (same : SameTables s after)
    (ram : ∀ w, (after.clusterStatus w).ramFreeKb = (s.clusterStatus w).ramFreeKb) :
    Linked after far where
  distinct first second := by
    rw [same.sock, same.sock]
    exact linked.distinct first second
  mapped fd id alive known := by
    rw [same.socketToId]
    exact linked.mapped fd id ((open_congr same.sock fd).mp alive) known
  peers := by
    rw [same.peerSockets]
    exact linked.peers
  reported w nonzero memory := by
    rw [ram] at memory
    obtain ⟨fd, alive, known⟩ := linked.reported w nonzero memory
    exact ⟨fd, (open_congr same.sock fd).mpr alive, known⟩

/-- A report outlives a change of what is known about a descriptor that is not open. -/
theorem Linked.reported_elsewhere (linked : Linked s far) {fd : Sock} (id : Option Nat)
    (new : ∀ x, s.Open x → x ≠ fd) (kept : ∀ x, s.Open x → after.Open x)
    (same : after.clusterStatus = s.clusterStatus) (w : Fin 17) (nonzero : w ≠ 0)
    (memory : 0 < (after.clusterStatus w).ramFreeKb.toNat) :
    ∃ x, after.Open x ∧ Function.update far fd id x = some w.val := by
  rw [same] at memory
  obtain ⟨x, alive, known⟩ := linked.reported w nonzero memory
  refine ⟨x, kept x alive, ?_⟩
  rwa [Function.update_of_ne (new x alive)]

theorem Linked.connected (linked : Linked s far) {i : Fin 16} {fd : Sock}
    (distinct : Distinct (afterConnect s i fd)) (free : (s.peerSockets i).val = 0)
    (live : 0 < fd.val) (fresh : ∀ slot, s.sock slot ≠ fd) :
    Linked (afterConnect s i fd) (Function.update far fd (some i.val)) := by
  have sameOpen (x : Sock) : (afterConnect s i fd).Open x ↔ x = fd ∨ s.Open x :=
    open_of_opened (sock_storePeer s i fd _) free live x
  have new (x : Sock) (alive : s.Open x) : x ≠ fd := ne_of_fresh (.inr ⟨live, fresh⟩) alive
  constructor
  · exact distinct
  · intro x id alive known
    by_cases same : x = fd
    · subst same
      rw [Function.update_self] at known
      cases known
      exact Function.update_self ..
    · rw [Function.update_of_ne same] at known
      have before := ((sameOpen x).mp alive).resolve_left same
      exact (Function.update_of_ne same ..).trans (linked.mapped x id before known)
  · intro j alive
    by_cases same : j = i
    · subst same
      simp [afterConnect]
    · simp only [afterConnect, Function.update_of_ne same] at alive ⊢
      have old : s.peerSockets j ≠ fd := fresh (.peer j)
      rw [Function.update_of_ne old]
      exact linked.peers j alive
  · exact linked.reported_elsewhere _ new (fun x alive => (sameOpen x).mpr (.inr alive)) rfl

/-- What is known of a descriptor that is not open is of no consequence. -/
theorem Linked.forget (linked : Linked s far) {fd : Sock} (new : ∀ x, s.Open x → x ≠ fd) :
    Linked s (Function.update far fd none) where
  distinct := linked.distinct
  mapped x id alive known := by
    rw [Function.update_of_ne (new x alive)] at known
    exact linked.mapped x id alive known
  peers i alive := by
    rw [Function.update_of_ne (new _ ⟨alive, .peer i, rfl⟩)]
    exact linked.peers i alive
  reported := linked.reported_elsewhere none new (fun _ alive => alive) rfl

/-- A connection in the inbound table about which nothing is known changes nothing. -/
theorem Linked.stored (linked : Linked s far) {i : Fin 16} {fd : Sock}
    (distinct : Distinct { s with inboundSockets := Function.update s.inboundSockets i fd })
    (unknown : ∀ x, ({ s with inboundSockets := Function.update s.inboundSockets i fd } : Node).Open x →
      far x ≠ none → s.Open x)
    (kept : ∀ x, s.Open x →
      ({ s with inboundSockets := Function.update s.inboundSockets i fd } : Node).Open x) :
    Linked { s with inboundSockets := Function.update s.inboundSockets i fd } far where
  distinct := distinct
  mapped x id alive known := linked.mapped x id (unknown x alive (by simp [known])) known
  peers := linked.peers
  reported w nonzero memory := by
    obtain ⟨x, alive, known⟩ := linked.reported w nonzero memory
    exact ⟨x, kept x alive, known⟩

theorem Linked.closed (linked : Linked s far) (slot : Slot)
    (distinct : Distinct (s.closeConnection slot).1) :
    Linked (s.closeConnection slot).1 (Function.update far (s.sock slot) none) := by
  have sameOpen := open_of_closed slot linked.distinct
  constructor
  · exact distinct
  · intro x id alive known
    obtain ⟨before, different⟩ := (sameOpen x).mp alive
    rw [Function.update_of_ne different] at known
    rw [closeConnection_socketToId, Function.update_of_ne (ne_free_of_live before.1)]
    exact linked.mapped x id before known
  · intro i alive
    obtain ⟨kept, different⟩ := peer_of_closed slot linked.distinct alive
    rw [kept] at alive ⊢
    rw [Function.update_of_ne different]
    exact linked.peers i alive
  · intro w nonzero memory
    obtain ⟨before, other⟩ := report_of_closed nonzero memory
    obtain ⟨x, alive, known⟩ := linked.reported w nonzero before
    have different : x ≠ s.sock slot := by
      intro same
      rw [same] at alive known
      exact other (linked.mapped _ _ alive known)
    refine ⟨x, (sameOpen x).mpr ⟨alive, different⟩, ?_⟩
    rwa [Function.update_of_ne different]

/-- A message on a connection with one sender id keeps the link. -/
theorem Linked.received (linked : Linked s far) {fd : Sock} {msg : Message}
    (status : ClusterStatus) (alive : s.Open fd)
    (sender : far fd = none ∨ far fd = some msg.senderId.toNat)
    (others : ∀ w : Fin 17, w.val ≠ msg.senderId.toNat → status w = s.clusterStatus w) :
    Linked { s.afterRead fd msg with clusterStatus := status }
      (Function.update far fd (some msg.senderId.toNat)) := by
  have sameOpen (x : Sock) :
      ({ s.afterRead fd msg with clusterStatus := status } : Node).Open x ↔ s.Open x :=
    open_congr (fun slot => by cases slot <;> rfl) x
  have known_of (id : Nat) (known : far fd = some id) : id = msg.senderId.toNat := by
    rcases sender with unknown | same
    · rw [unknown] at known
      cases known
    · exact Option.some.inj (known.symm.trans same)
  constructor
  · intro first second
    exact linked.distinct first second
  · intro x id opened known
    by_cases same : x = fd
    · subst same
      rw [Function.update_self] at known
      cases known
      exact Function.update_self ..
    · rw [Function.update_of_ne same] at known
      exact (Function.update_of_ne same ..).trans (linked.mapped x id ((sameOpen x).mp opened) known)
  · intro i live
    have opened : far (s.peerSockets i) = some i.val := linked.peers i live
    show Function.update far fd _ (s.peerSockets i) = some i.val
    by_cases same : s.peerSockets i = fd
    · rw [same] at opened ⊢
      rw [Function.update_self, known_of _ opened]
    · rwa [Function.update_of_ne same]
  · intro w nonzero memory
    by_cases own : w.val = msg.senderId.toNat
    · refine ⟨fd, (sameOpen fd).mpr alive, ?_⟩
      rw [Function.update_self, own]
    · replace memory : 0 < (status w).ramFreeKb.toNat := memory
      rw [others w own] at memory
      obtain ⟨x, opened, known⟩ := linked.reported w nonzero memory
      refine ⟨x, (sameOpen x).mpr opened, ?_⟩
      rw [Function.update_of_ne]
      · exact known
      · intro same
        rw [same] at known
        exact own (known_of _ known)

end Keeps

theorem identify_sends (far : FarEnds) (actions : List Action) (sends : OnlySends actions) :
    actions.foldl identify far = far :=
  foldl_sends identify (fun _ _ _ => rfl) actions sends far

theorem identify_dispatched (far : FarEnds) (tasks : List Dispatch) :
    (tasks.map (Action.dispatched .distributed)).foldl identify far = far :=
  foldl_dispatched identify (fun _ _ _ => rfl) .distributed tasks far

theorem identify_closeConnection (s : Node) (slot : Slot) (far : FarEnds) :
    (s.closeConnection slot).2.foldl identify far = Function.update far (s.sock slot) none := by
  rw [closeConnection_actions]
  split <;> rfl

/-- One step keeps the link, whichever event it is. -/
theorem linked_step {s after : Node} {far : FarEnds} {event : Event} {actions : List Action}
    (step : s.Step event actions after) (linked : Linked s far)
    (sender : ∀ slot fd msg, .received slot fd msg ∈ actions →
      far fd = none ∨ far fd = some msg.senderId.toNat) :
    Linked after (actions.foldl identify far) := by
  have distinct := distinct_step step.effect linked.distinct
  have success := step.2
  cases step.effect with
  | quiet sends => rwa [identify_sends far _ sends]
  | connected i free live fresh => exact linked.connected distinct free live fresh
  | @admitted ns i free live fresh =>
    have sameOpen := open_of_opened (sock_storeInbound s i ns) free live
    have new (x : Sock) (alive : s.Open x) : x ≠ ns := ne_of_fresh (.inr ⟨live, fresh⟩) alive
    have forgotten := linked.forget new
    refine forgotten.stored distinct (fun x alive known => ?_)
      (fun x alive => (sameOpen x).mpr (.inr alive))
    rcases (sameOpen x).mp alive with rfl | before
    · rw [Function.update_self] at known
      exact absurd rfl known
    · exact before
  | failedAccept i free =>
    have sameOpen := open_of_failed (sock_storeInbound s i .failed) free (by decide)
    exact linked.stored distinct (fun x alive _ => (sameOpen x).mp alive)
      (fun x alive => (sameOpen x).mpr alive)
  | refused fresh => exact linked.forget fun x alive => ne_of_fresh fresh alive
  | @closed slot ctx live serviced =>
    rw [identify_closeConnection]
    exact linked.closed slot distinct
  | @received slot piece nonempty fits ctx sends status live serviced onlySends =>
    rw [List.foldl_cons, identify_sends _ _ onlySends]
    simp only [Node.step, serviced, if_true] at success
    obtain ⟨_, _, processed⟩ := handleSock_data ctx s _ slot piece nonempty fits _ live success
    exact linked.received status ⟨live, slot, rfl⟩ (sender slot _ _ List.mem_cons_self)
      fun w other => by
        by_contra changed
        exact other (processMessage_changes processed changed).2
  | spawned task =>
    exact linked.congr ⟨rfl, rfl, rfl, rfl⟩ (markedBusy_ram s.clusterStatus task.worker)
  | @scattered _ _ _ start stop tasks jobId =>
    rw [List.foldl_cons, identify_dispatched]
    refine linked.congr (scatter_sameTables s jobId (stop - start) tasks) fun w => ?_
    rw [scatter_clusterStatus]
    exact markAll_ram s.clusterStatus _ w

/-- In every run from start-up in which each connection carries one sender id, a worker
that the scheduler chooses can be reached in every state. -/
theorem chosen_worker_reached (myNodeId : Int) (msgBuffer : Message) {last : Node × FarEnds}
    {steps : List (Transition (Node × FarEnds) Event Action)}
    (run : Run (withHistory Node.Step identify) (.boot myNodeId msgBuffer, fun _ => none) steps last)
    (oneSender : ∀ t ∈ steps, OneSender t) :
    ChosenReached last.1 ∧ ∀ t ∈ steps, ChosenReached t.before.1 ∧ ChosenReached t.after.1 := by
  have held := run.guarded_invariant (fun p => Linked p.1 p.2) OneSender
    (fun t valid linked sender => by
      rw [valid.history]
      exact linked_step valid.forget linked sender)
    (linked_boot myNodeId msgBuffer) oneSender
  refine ⟨held.1.chosenReached, fun t member => ?_⟩
  obtain ⟨before, after⟩ := held.2 t member
  exact ⟨before.chosenReached, after.chosenReached⟩

/-- Node 2 is connected, reports, and is chosen. -/
theorem run_reportTwo : ∃ last steps,
    Run (withHistory Node.Step identify) (.boot 1 .zeroed, fun _ => none) steps last ∧
      (∀ t ∈ steps, OneSender t) ∧
      findBestNode last.1.clusterStatus last.1.myNodeId = some 2 := by
  have connect := observed step_connectTwo identify fun _ => none
  have report := observed step_reportTwo identify (Function.update (fun _ => none) fd5 (some 2))
  refine ⟨_, _, (Run.single connect).snoc report, ?_, readyTwo_winner⟩
  intro t member slot fd msg read
  rcases List.mem_append.mp member with first | second
  · rw [List.mem_singleton.mp first] at read
    simp at read
  · rw [List.mem_singleton.mp second] at read ⊢
    cases List.mem_singleton.mp read
    exact .inr rfl

/-- There the choice can be reached. -/
theorem chosen_worker_reached_two : ∃ last steps,
    Run (withHistory Node.Step identify) (.boot 1 .zeroed, fun _ => none) steps last ∧
      findBestNode last.1.clusterStatus last.1.myNodeId = some 2 ∧ ChosenReached last.1 ∧
      ∀ t ∈ steps, ChosenReached t.before.1 ∧ ChosenReached t.after.1 := by
  obtain ⟨last, steps, run, oneSender, chosen⟩ := run_reportTwo
  exact ⟨last, steps, run, chosen, chosen_worker_reached 1 .zeroed run oneSender⟩

end VelumOS.Guarantees.WorkerReachable
