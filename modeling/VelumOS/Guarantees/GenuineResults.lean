import VelumOS.Spec.Network
import VelumOS.Guarantees.RequestReplies
import VelumOS.Guarantees.ScatterCoverage

/-!
# Results are genuine

In a network of nodes a result reaches its requester over a link of its own: the worker
replies on the connection that it opened to the id in the request. Each result received
or in flight between two nodes pairs with one request that was delivered and run. The
sender id on the wire has 16 bits, so this needs ids that differ there; with ids that
only differ as `int` the reply can go to another node.
-/
namespace VelumOS.Guarantees.GenuineResults
open VelumOS.Source VelumOS.Spec Base.Links Base.Runs
open VelumOS.Guarantees.RequestReplies VelumOS.Guarantees.ScatterCoverage

section Network
variable {ι : Type} [DecidableEq ι] {id : ι → Int}

/-- Job and value of a result of `worker` that arrives at `requester`. -/
def resultOf (requester worker : ι) (dest : End ι) (msg : Message) : Option (UInt32 × Int32) :=
  if dest.near = requester ∧ dest.far = worker ∧ msg.type = .taskResult then
    some ((TaskResult.view msg.payload).jobId, (TaskResult.view msg.payload).value)
  else none

/-- Job and sandbox result of a request of `requester` that was delivered to `worker`. -/
def computedFor (requester worker : ι) (d : Delivery ι) : Option (UInt32 × Int32) :=
  if d.dest.near = worker ∧ d.dest.far = requester ∧ d.msg.type = .taskRequest ∧
      (TaskHeader.view d.msg.payload).opCode = .executeWasm then
    match runWasmRequest d.ctx d.msg.payload with
    | .ok value => some ((TaskHeader.view d.msg.payload).jobId, value)
    | .error _ => none
  else none

/-- The `TASK_RESULT`s that `requester` has received from `worker`. -/
def received (requester worker : ι) (seen : List (Delivery ι)) : Multiset (UInt32 × Int32) :=
  ↑(seen.filterMap fun d => resultOf requester worker d.dest d.msg)

/-- The sandbox results of the `EXECUTE_WASM` requests that the connections of
`requester` have delivered to `worker`. -/
def computed (requester worker : ι) (seen : List (Delivery ι)) : Multiset (UInt32 × Int32) :=
  ↑(seen.filterMap (computedFor requester worker))

/-- The history of a run: its deliveries, oldest first. -/
def note (seen : List (Delivery ι)) (d : Delivery ι) : List (Delivery ι) := seen ++ [d]

/-! ## What is in flight -/

section Counts
variable (requester worker : ι) (pair : UInt32 × Int32)

/-- Results with this content on their way from `worker` to `requester`. -/
def inFlight (net : Net ι) : Nat :=
  net.medium.flight.countP fun p => resultOf requester worker p.dest p.msg = some pair

def timesReceived (seen : List (Delivery ι)) : Nat :=
  seen.countP fun d => resultOf requester worker d.dest d.msg = some pair

def timesComputed (seen : List (Delivery ι)) : Nat :=
  seen.countP fun d => computedFor requester worker d = some pair

/-- Results received or in flight are among those that were computed. -/
def Balanced (net : Net ι) (seen : List (Delivery ι)) : Prop :=
  ∀ requester worker pair, timesReceived requester worker pair seen +
    inFlight requester worker pair net ≤ timesComputed requester worker pair seen

theorem timesReceived_note (seen : List (Delivery ι)) (d : Delivery ι) :
    timesReceived requester worker pair (note seen d) = timesReceived requester worker pair seen +
      if resultOf requester worker d.dest d.msg = some pair then 1 else 0 := by
  simp only [timesReceived, note, List.countP_append, List.countP_singleton, decide_eq_true_eq]

theorem timesComputed_note (seen : List (Delivery ι)) (d : Delivery ι) :
    timesComputed requester worker pair (note seen d) = timesComputed requester worker pair seen +
      if computedFor requester worker d = some pair then 1 else 0 := by
  simp only [timesComputed, note, List.countP_append, List.countP_singleton, decide_eq_true_eq]

/-- A message that is taken is no longer in flight. -/
theorem inFlight_taken (net : Net ι) {e : End ι} {msg : Message} {left : Medium ι Message}
    (taken : net.medium.Takes e msg left) :
    inFlight requester worker pair net = inFlight requester worker pair { net with medium := left } +
      if resultOf requester worker e msg = some pair then 1 else 0 := by
  have counted := taken.countP fun p => resultOf requester worker p.dest p.msg = some pair
  simpa only [inFlight, decide_eq_true_eq] using counted

/-- A message that is sent is in flight once at most. -/
theorem inFlight_send_le (net : Net ι) {i : ι} {fd : Sock} {e : End ι} (msg : Message)
    (wired : net.wire i fd = some e) :
    inFlight requester worker pair (net.send i fd msg) ≤ inFlight requester worker pair net +
      if resultOf requester worker e.opposite msg = some pair then 1 else 0 := by
  have counted := net.medium.countP_post_le
    (fun p => resultOf requester worker p.dest p.msg = some pair) e msg
  simp only [Net.send, wired]
  simpa only [inFlight, decide_eq_true_eq] using counted

theorem inFlight_hangUp_le (net : Net ι) (i : ι) (fd : Sock) :
    inFlight requester worker pair (net.hangUp i fd) ≤ inFlight requester worker pair net := by
  unfold Net.hangUp
  split
  · exact net.medium.countP_cut_le _ _
  · exact le_rfl

/-- A message that is no result adds none. -/
theorem inFlight_send_other (net : Net ι) (i : ι) (fd : Sock) (msg : Message)
    (other : msg.type ≠ .taskResult) :
    inFlight requester worker pair (net.send i fd msg) ≤ inFlight requester worker pair net := by
  cases wired : net.wire i fd with
  | none => simp only [Net.send, wired, le_refl]
  | some e =>
    have sent := inFlight_send_le requester worker pair net msg wired
    simpa only [resultOf, other, and_false, if_false, reduceCtorEq, add_zero] using sent

/-- Actions that send no result put none in flight. -/
theorem inFlight_performs_le (net : Net ι) (i : ι) (actions : List Action)
    (others : ∀ a ∈ actions, ∀ fd msg, handed a = some (fd, msg) → msg.type ≠ .taskResult) :
    inFlight requester worker pair (actions.foldl (Net.perform i) net) ≤
      inFlight requester worker pair net := by
  induction actions generalizing net with
  | nil => exact le_rfl
  | cons a rest ih =>
    rw [List.foldl_cons]
    apply (ih _ fun b member => others b (List.mem_cons_of_mem a member)).trans
    have other := others a List.mem_cons_self
    cases a with
    | sent fd msg => exact inFlight_send_other requester worker pair net i fd msg (other fd msg rfl)
    | dispatched call task =>
      exact inFlight_send_other requester worker pair net i task.fd task.msg (other _ _ rfl)
    | closed fd => exact inFlight_hangUp_le requester worker pair net i fd
    | _ => exact le_rfl

end Counts

/-- No node has on the wire the sender id of another node whose id names an entry of
`peer_sockets`. -/
def SendersApart (id : ι → Int) : Prop :=
  ∀ i j, 0 ≤ id i → id i < 16 → UInt16.ofInt (id i) = UInt16.ofInt (id j) → i = j

/-- The id on the wire, read as a number, has itself as its 16-bit form. -/
theorem ofInt_natCast_toNat (senderId : UInt16) : UInt16.ofInt (senderId.toNat : Int) = senderId := by
  have bound := senderId.toNat_lt
  apply UInt16.toNat_inj.mp
  simp only [UInt16.ofInt, UInt16.toNat_ofNat']
  omega

omit [DecidableEq ι] in
/-- With senders that are told apart, the reply to a request goes back to the node that
sent it. -/
theorem replyTarget_genuine {net : Net ι} (sound : Sound id net)
    (apart : SendersApart id) {i : ι} {e : End ι}
    {msg : Message} {fd : Sock} (member : ⟨e, msg⟩ ∈ net.medium.flight)
    (chosen : (net.node i).replyTarget msg.senderId = some fd) :
    ∃ back, net.wire i fd = some back ∧ back.near = i ∧ back.far = e.far := by
  obtain ⟨k, same, live, rfl⟩ := (replyTarget_eq_some_iff _ _ _).mp chosen
  obtain ⟨back, wired, named⟩ := sound.peers i k live
  have bound := k.isLt
  refine ⟨back, wired, sound.wired i _ back wired, apart _ _ (by omega) (by omega) ?_⟩
  rw [named, same, ofInt_natCast_toNat]
  exact (sound.flight _ member).1

/-- The reply to a request carries its job and the result it computed. -/
theorem resultOf_reply (requester worker : ι) {e back : End ι} {msg : Message} {ctx : ReadContext}
    {value : Int32} (old : Message) (myId : Int) (asks : IsRequest msg)
    (ran : runWasmRequest ctx msg.payload = .ok value) (home : back.near = e.near)
    (away : back.far = e.far) :
    resultOf requester worker back.opposite (resultMessage old myId .taskResult
        ⟨(TaskHeader.view msg.payload).jobId, value, 1⟩) =
      computedFor requester worker ⟨e, msg, ctx⟩ := by
  simp only [resultOf, computedFor, End.near_opposite, End.far_opposite, home, away, asks.1, asks.2,
    view_resultMessage, ran, and_true, show (resultMessage old myId .taskResult
      ⟨(TaskHeader.view msg.payload).jobId, value, 1⟩).type = .taskResult from rfl]
  by_cases between : e.far = requester ∧ e.near = worker
  · rw [if_pos between, if_pos between.symm]
  · rw [if_neg between, if_neg (mt And.symm between)]

/-- What a delivery puts in flight is the result that it computed. -/
theorem inFlight_delivered_le (requester worker : ι) (pair : UInt32 × Int32) {net : Net ι}
    (sound : Sound id net) (apart : SendersApart id)
    {i : ι} {slot : Slot} {ctx : ReadContext} {e : End ι} {msg : Message}
    {left : Medium ι Message} {actions : List Action} {s : Node} (serviced : slot.serviced)
    (live : 0 < ((net.node i).sock slot).val)
    (wired : net.wire i ((net.node i).sock slot) = some e) (taken : net.medium.Takes e msg left)
    (step : (net.node i).Step (readWhole slot msg ctx) actions s) :
    inFlight requester worker pair ({ net with medium := left }.after i s actions) ≤
      inFlight requester worker pair { net with medium := left } +
        if computedFor requester worker ⟨e, msg, ctx⟩ = some pair then 1 else 0 := by
  have member := taken.mem_flight.1
  have near := sound.wired i _ e wired
  rcases read_cases serviced live (sound.flight _ member).2 step with
    ⟨_, rfl⟩ | ⟨asks, value, ran, rfl⟩
  · exact Nat.le_add_right _ _
  · cases chosen : (net.node i).replyTarget msg.senderId with
    | none => exact Nat.le_add_right _ _
    | some fd =>
      obtain ⟨back, away, home, far⟩ := replyTarget_genuine sound apart member chosen
      have reply := resultOf_reply requester worker (ctx.task.stack 0) (net.node i).myNodeId asks
        ran (home.trans near.symm) far
      have sent := inFlight_send_le requester worker pair ({ net with medium := left }.store i s)
        (resultMessage (ctx.task.stack 0) (net.node i).myNodeId .taskResult
          ⟨(TaskHeader.view msg.payload).jobId, value, 1⟩) away
      rw [reply] at sent
      exact sent

/-- A message of ours that is delivered keeps the balance: a result moves from the link
to the requester, and a request is run and answered once. -/
theorem balanced_delivered {net : Net ι} {seen : List (Delivery ι)} (sound : Sound id net)
    (apart : SendersApart id)
    (balanced : Balanced net seen) {i : ι} {slot : Slot} {ctx : ReadContext} {e : End ι}
    {msg : Message} {left : Medium ι Message} {actions : List Action} {s : Node}
    (serviced : slot.serviced) (live : 0 < ((net.node i).sock slot).val)
    (wired : net.wire i ((net.node i).sock slot) = some e) (taken : net.medium.Takes e msg left)
    (step : (net.node i).Step (readWhole slot msg ctx) actions s) :
    Balanced ({ net with medium := left }.after i s actions) (note seen ⟨e, msg, ctx⟩) := by
  intro requester worker pair
  have before := balanced requester worker pair
  have moved := inFlight_taken requester worker pair net taken
  have answered := inFlight_delivered_le requester worker pair sound apart serviced live wired
    taken step
  rw [timesReceived_note, timesComputed_note]
  dsimp only
  omega

/-- Steps that deliver nothing keep the balance if they send no result. -/
theorem Balanced.mono {net after : Net ι} {seen : List (Delivery ι)} (balanced : Balanced net seen)
    (less : ∀ requester worker pair,
      inFlight requester worker pair after ≤ inFlight requester worker pair net) :
    Balanced after seen := fun requester worker pair =>
  (Nat.add_le_add_left (less requester worker pair) _).trans (balanced requester worker pair)

/-! ## One step and a run -/

/-- A step keeps the balance of results and requests. -/
theorem balanced_step (apart : SendersApart id)
    {net next : Net ι} {event : NetEvent ι} {deliveries : List (Delivery ι)}
    {seen : List (Delivery ι)} (step : Net.Step net event deliveries next) (sound : Sound id net)
    (balanced : Balanced net seen) : Balanced next (deliveries.foldl note seen) := by
  cases step with
  | @own i event actions s alone step =>
    refine balanced.mono fun requester worker pair => ?_
    apply inFlight_performs_le requester worker pair (net.store i s)
    intro a member fd msg sent
    rcases (handed_of_alone alone step member sent).2 with report | request
    · simp [report]
    · simp [request.1]
  | heard => exact balanced
  | connected => exact balanced
  | @accepted i fd e rest actions s waiting live step =>
    refine balanced.mono fun requester worker pair => ?_
    apply inFlight_performs_le requester worker pair ((net.pickUp i fd e rest).store i s)
    intro a member x msg sent
    rcases (accept_cases step).2 a member with rfl | rfl
    · cases sent
    · cases sent
  | delivered serviced live wired taken step =>
    exact balanced_delivered sound apart balanced serviced live wired taken step
  | @failed i slot ctx actions s serviced live step =>
    obtain ⟨_, sends, _⟩ := failed_cases (sound.distinct i) serviced live step
    refine balanced.mono fun requester worker pair => ?_
    apply inFlight_performs_le requester worker pair (net.store i s)
    intro a member fd msg sent
    rw [sends a member] at sent
    cases sent
  | broke link =>
    exact balanced.mono fun requester worker pair => net.medium.countP_cut_le _ link

omit [DecidableEq ι] in
/-- Occurrences of what a partial function yields are occurrences of what yields it. -/
theorem count_filterMap (f : Delivery ι → Option (UInt32 × Int32)) (seen : List (Delivery ι))
    (pair : UInt32 × Int32) :
    Multiset.count pair ↑(seen.filterMap f) = seen.countP fun d => f d = some pair := by
  induction seen with
  | nil => simp
  | cons d rest ih =>
    cases yields : f d with
    | none => simpa [yields] using ih
    | some other =>
      rw [Multiset.coe_count] at ih
      by_cases same : other = pair
      · simp [yields, same, ih]
      · simp [yields, same, ih]

/-- In every run of a network in which no node is taken for one with an entry in the socket
tables, for every two nodes the results that one has received from the other are among the
sandbox results of the requests that were delivered the other way, each counted as often as
it occurs. -/
theorem results_genuine (id : ι → Int) (msgBuffer : ι → Message)
    (apart : SendersApart id)
    {last : Net ι × List (Delivery ι)}
    {steps : List (Transition (Net ι × List (Delivery ι)) (NetEvent ι) (Delivery ι))}
    (run : Run (withHistory Net.Step note) (Net.boot id msgBuffer, []) steps last) :
    ∀ requester worker, received requester worker last.2 ≤ computed requester worker last.2 := by
  have held := run.invariant (fun p => Sound id p.1 ∧ Balanced p.1 p.2)
    (fun t valid inv => by
      rw [valid.history]
      exact ⟨sound_step valid.forget inv.1, balanced_step apart valid.forget inv.1 inv.2⟩)
    ⟨sound_boot id msgBuffer, fun requester worker pair => le_rfl⟩
  intro requester worker
  rw [Multiset.le_iff_count]
  intro pair
  rw [received, computed, count_filterMap, count_filterMap]
  exact (Nat.le_add_right _ _).trans (held.1.2 requester worker pair)

end Network

/-! ## One exchange -/

section Exchange
variable {ι : Type} [DecidableEq ι] {id : ι → Int} {a w o : ι} {net : Net ι}

/-- A node hears another one for the first time. -/
theorem step_link {i j : ι} {k : Fin 16} {s : Node} (fd : Sock) (here : net.node i = s)
    (named : (net.node j).myNodeId = k.val) (foreign : (k.val : Int) ≠ s.myNodeId)
    (free : (s.peerSockets k).val = 0) (live : 0 < fd.val) (fresh : ∀ slot, s.sock slot ≠ fd) :
    Net.Step net (.beacon i j fd) [] ((net.connect i j fd).store i (afterConnect s k fd)) := by
  subst here
  have step := step_connect (net.node i) k (8000 + k.val) fd foreign free live fresh
  rw [← named] at step
  exact .connected step

/-- The oldest waiting link is accepted in the first entry. -/
theorem step_pickUp {i : ι} {s : Node} {e : End ι} {rest : List (End ι)} (fd : Sock)
    (here : net.node i = s) (waiting : net.backlog i = e :: rest)
    (free : (s.inboundSockets 0).val = 0) (live : 0 < fd.val) (fresh : ∀ slot, s.sock slot ≠ fd) :
    Net.Step net (.accept i fd) [] ((net.pickUp i fd e rest).store i
      { s with inboundSockets := Function.update s.inboundSockets 0 fd }) := by
  subst here
  exact .accepted waiting live (step_accept _ fd free live fresh)

/-- The node that asks: it is connected to node 2. -/
def asking (myNodeId : Int) : Node := afterConnect (.boot myNodeId .zeroed) 2 fd5

theorem asking_sock (myNodeId : Int) (slot : Slot) :
    (asking myNodeId).sock slot = if slot = .peer 2 then fd5 else .free := by
  rw [asking, afterConnect, sock_storePeer, sock_boot]

/-- The node that works: it is connected to node 1 and has accepted one connection. -/
def working : Node :=
  { afterConnect (.boot 2 .zeroed) 1 fd5 with
    inboundSockets := Function.update (fun _ => .free) 0 fd6 }

/-- A call that scatters ten numbers. -/
def scatterTen : Event := .distributed .zeroed (some ⟨(0 : Nat), []⟩) [102] 0 10

/-- A node that is connected to node 2 only asks it. -/
theorem step_asks {myNodeId : Int} (workers : (asking myNodeId).findAllWorkers myNodeId = [2]) :
    ∃ msg after, (asking myNodeId).Step scatterTen
        [.recorded 0, .dispatched .distributed ⟨2, fd5, msg⟩] after ∧
      RequestFor myNodeId 0 [102] msg ∧ SameTables (asking myNodeId) after := by
  obtain ⟨fd, msg, target, request, sent⟩ := distributed_single .zeroed [102] 0 10 (asking myNodeId) 2 workers
  have found : (asking myNodeId).findTarget 2 = some fd5 := rfl
  cases Option.some.inj (found.symm.trans target)
  exact ⟨msg, _, ⟨trivial, sent⟩, request, scatter_sameTables _ 0 (10 - 0) [⟨2, fd5, msg⟩]⟩

/-- The link that the worker opens to the node with id 1. -/
def replyLink (w o : ι) : Link ι := ⟨0, w, o⟩

/-- The link that the asking node opens to the worker. -/
def requestLink (a w : ι) : Link ι := ⟨1, a, w⟩

/-- What is in flight when both links work. -/
def carrying (a w o : ι) (flight : List (Packet ι Message)) : Medium ι Message :=
  ⟨2, [requestLink a w, replyLink w o], flight⟩

/-- Node `a` can ask the worker, which can answer node `o`. -/
structure Ready (id : ι → Int) (a w o : ι) (net : Net ι) : Prop where
  asker : net.node a = asking (id a)
  worker : net.node w = working
  owner : o ≠ a → net.node o = .boot (id o) .zeroed
  asks : net.wire a fd5 = some ⟨requestLink a w, .opener⟩
  hears : net.wire w fd6 = some ⟨requestLink a w, .called⟩
  answers : net.wire w fd5 = some ⟨replyLink w o, .opener⟩
  waiting : net.backlog o = [⟨replyLink w o, .called⟩]
  medium : net.medium = carrying a w o []

/-- The request is on its way. -/
structure Asked (a w o : ι) (msg : Message) (net : Net ι) : Prop where
  worker : net.node w = working
  owner : ∀ slot, (net.node o).sock slot = if o = a ∧ slot = .peer 2 then fd5 else .free
  hears : net.wire w fd6 = some ⟨requestLink a w, .called⟩
  answers : net.wire w fd5 = some ⟨replyLink w o, .opener⟩
  waiting : net.backlog o = [⟨replyLink w o, .called⟩]
  medium : net.medium = carrying a w o [⟨⟨requestLink a w, .called⟩, msg⟩]

/-- The answer is on its way. -/
structure Replied (a w o : ι) (reply : Message) (net : Net ι) : Prop where
  owner : ∀ slot, (net.node o).sock slot = if o = a ∧ slot = .peer 2 then fd5 else .free
  waiting : net.backlog o = [⟨replyLink w o, .called⟩]
  medium : net.medium = carrying a w o [⟨⟨replyLink w o, .called⟩, reply⟩]

theorem boot_sock_ne (myNodeId : Int) {fd : Sock} (live : 0 < fd.val) (slot : Slot) :
    (Node.boot myNodeId .zeroed).sock slot ≠ fd := by
  rw [sock_boot]
  exact (ne_free_of_live live).symm

/-- The worker connects to `o`, node `a` to the worker, and the worker accepts. -/
theorem ready_run (worker : id w = 2) (owner : id o = 1) (foreign : id a ≠ 2) (otherOwner : o ≠ w)
    (otherAsker : a ≠ w) : ∃ net steps,
      Run (withHistory Net.Step note) (Net.boot id fun _ => .zeroed, []) steps (net, []) ∧
        Ready id a w o net := by
  obtain ⟨n1, s1, node1, wire1, backlog1, medium1⟩ : ∃ n1 : Net ι,
      Net.Step (Net.boot id fun _ => .zeroed) (.beacon w o fd5) [] n1 ∧
      n1.node = Function.update (fun j => .boot (id j) .zeroed) w
        (afterConnect (.boot 2 .zeroed) 1 fd5) ∧
      n1.wire = Function.update (fun _ _ => none) w
        (Function.update (fun _ => none) fd5 (some ⟨replyLink w o, .opener⟩)) ∧
      n1.backlog = Function.update (fun _ => []) o [⟨replyLink w o, .called⟩] ∧
      n1.medium = ⟨1, [replyLink w o], []⟩ := by
    refine ⟨_, step_link (k := 1) fd5 (s := .boot 2 .zeroed) ?_ ?_ (by decide) rfl (by decide)
      (boot_sock_ne 2 (by decide)), rfl, rfl, rfl, rfl⟩
    · rw [← worker]
      rfl
    · exact owner
  obtain ⟨n2, s2, node2, wire2, backlog2, medium2⟩ : ∃ n2 : Net ι,
      Net.Step n1 (.beacon a w fd5) [] n2 ∧
      n2.node = Function.update n1.node a (asking (id a)) ∧
      n2.wire = Function.update n1.wire a
        (Function.update (n1.wire a) fd5 (some ⟨requestLink a w, .opener⟩)) ∧
      n2.backlog = Function.update n1.backlog w (n1.backlog w ++ [⟨requestLink a w, .called⟩]) ∧
      n2.medium = carrying a w o [] := by
    have here : n1.node a = .boot (id a) .zeroed := by rw [node1, Function.update_of_ne otherAsker]
    have named : (n1.node w).myNodeId = (2 : Fin 16).val := by
      rw [node1, Function.update_self]
      rfl
    have step := step_link fd5 here named (fun same => foreign same.symm) rfl (by decide)
      (boot_sock_ne (id a) (by decide))
    refine ⟨_, step, rfl, ?_, ?_, ?_⟩
    · simp [Net.connect, Net.store, Net.plug, Medium.next, medium1, requestLink]
    · simp [Net.connect, Net.store, Medium.next, medium1, requestLink]
    · simp [Net.connect, Net.store, Medium.connect, Medium.next, medium1, requestLink, carrying]
  have here : n2.node w = afterConnect (.boot 2 .zeroed) 1 fd5 := by
    rw [node2, Function.update_of_ne otherAsker.symm, node1, Function.update_self]
  have waiting : n2.backlog w = [⟨requestLink a w, .called⟩] := by
    rw [backlog2, Function.update_self, backlog1, Function.update_of_ne otherOwner.symm]
    rfl
  have s3 := step_pickUp fd6 here waiting rfl (by decide) (by
    intro slot
    rw [afterConnect, sock_storePeer, sock_boot]
    split <;> decide)
  have run := ((Run.single (observed s1 note [])).snoc (observed s2 note [])).snoc
    (observed s3 note [])
  refine ⟨_, _, run, ?_⟩
  constructor
  · simp [Net.store, Net.pickUp, Net.plug, otherAsker, node2]
  · simp only [Net.store, Function.update_self]
    rfl
  · intro other
    simp [Net.store, Net.pickUp, Net.plug, otherOwner, node2, other, node1]
  · simp [Net.store, Net.pickUp, Net.plug, otherAsker, wire2]
  · simp [Net.store, Net.pickUp, Net.plug]
  · have different : fd5 ≠ fd6 := by decide
    simp [Net.store, Net.pickUp, Net.plug, different, wire2, otherAsker.symm, wire1]
  · simp [Net.store, Net.pickUp, Net.plug, otherOwner, backlog2, backlog1]
  · simpa [Net.store, Net.pickUp, Net.plug] using medium2

/-- Node `a` sends its request to the worker. -/
theorem asked_step (ready : Ready id a w o net) (otherAsker : a ≠ w)
    (workers : (asking (id a)).findAllWorkers (id a) = [2]) : ∃ msg next,
      Net.Step net (.own a scatterTen) [] next ∧ RequestFor (id a) 0 [102] msg ∧
        Asked a w o msg next := by
  obtain ⟨msg, after, asks, request, tables⟩ := step_asks workers
  have step : Net.Step net (.own a scatterTen) [] _ := .own trivial (by rw [ready.asker]; exact asks)
  refine ⟨msg, _, step, request, ?_⟩
  constructor
  · simp [Net.after, Net.perform, Net.send, Net.store, ready.asks, otherAsker.symm, ready.worker]
  · intro slot
    by_cases same : o = a
    · subst same
      simp [Net.after, Net.perform, Net.send, Net.store, ready.asks, tables.sock, asking_sock]
    · simp [Net.after, Net.perform, Net.send, Net.store, ready.asks, same, ready.owner same, sock_boot]
  · simp [Net.after, Net.perform, Net.send, Net.store, ready.asks, ready.hears]
  · simp [Net.after, Net.perform, Net.send, Net.store, ready.asks, ready.answers]
  · simp [Net.after, Net.perform, Net.send, Net.store, ready.asks, ready.waiting]
  · simp [Net.after, Net.perform, Net.send, Net.store, ready.asks, ready.medium, carrying,
      Medium.post, End.opposite]

/-- The worker runs a request in the name of node 1 and sends the result to node `o`. -/
theorem replied_step {msg : Message} {myNodeId : Int} (asked : Asked a w o msg net)
    (otherOwner : o ≠ w) (request : RequestFor myNodeId 0 [102] msg)
    (asker : UInt16.ofInt myNodeId = 1) : ∃ reply next,
      Net.Step net (.deliver w (.inbound 0) noEnvironment)
        [⟨⟨requestLink a w, .called⟩, msg, noEnvironment⟩] next ∧
      reply.type = .taskResult ∧ TaskResult.view reply.payload = ⟨0, -1, 1⟩ ∧
      Replied a w o reply next := by
  have kind : IsRequest msg := ⟨request.type, by rw [request.header]⟩
  have ran : runWasmRequest noEnvironment msg.payload = .ok (-1) :=
    request.runs (by decide) (by decide) rfl
  obtain ⟨actions, handles⟩ := step_request working (.inbound 0) msg noEnvironment (-1) rfl
    (by decide) kind.1 kind.2 ran
  have replyTarget : working.replyTarget msg.senderId = some fd5 := by
    rw [request.sender, asker]
    rfl
  rcases read_cases rfl (by decide) (.inr (.inl kind)) handles with
    ⟨other, _⟩ | ⟨_, value, again, sent⟩
  · exact absurd kind.1 other
  · cases ran.symm.trans again
    rw [replyTarget] at sent
    dsimp only at sent
    obtain ⟨reply, sent, type, result⟩ : ∃ reply : Message,
        actions = [.received (.inbound 0) (working.sock (.inbound 0)) msg, .sent fd5 reply] ∧
        reply.type = .taskResult ∧ TaskResult.view reply.payload = ⟨0, -1, 1⟩ :=
      ⟨_, sent, rfl, by rw [view_resultMessage, request.header]⟩
    rw [sent] at handles
    have taken : net.medium.Takes ⟨requestLink a w, .called⟩ msg (carrying a w o []) := by
      rw [asked.medium]
      exact .first [] [] rfl (by simp)
    have step : Net.Step net (.deliver w (.inbound 0) noEnvironment) _ _ :=
      .delivered rfl (by rw [asked.worker]; decide) (by rw [asked.worker]; exact asked.hears) taken
        (by rw [asked.worker]; exact handles)
    refine ⟨reply, _, step, type, result, ?_⟩
    constructor
    · intro slot
      simp [Net.after, Net.perform, Net.send, Net.store, asked.answers, otherOwner, asked.owner]
    · simp [Net.after, Net.perform, Net.send, Net.store, asked.answers, asked.waiting]
    · simp [Net.after, Net.perform, Net.send, Net.store, asked.answers, carrying, Medium.post,
        End.opposite]

/-- Node `o` accepts the worker's link and reads the answer. -/
theorem answer_read {reply : Message} (replied : Replied a w o reply net)
    (type : reply.type = .taskResult) : ∃ mid last, Net.Step net (.accept o fd6) [] mid ∧
      Net.Step mid (.deliver o (.inbound 0) .refusing)
        [⟨⟨replyLink w o, .called⟩, reply, .refusing⟩] last := by
  have free : (net.node o).inboundSockets 0 = .free := by
    have entry := replied.owner (.inbound 0)
    rwa [if_neg (by simp)] at entry
  have accept := step_pickUp fd6 rfl replied.waiting (by rw [free]; rfl) (by decide) (by
    intro slot
    rw [replied.owner]
    split <;> decide)
  obtain ⟨mid, accept, here, wired, medium⟩ : ∃ mid : Net ι, Net.Step net (.accept o fd6) [] mid ∧
      (mid.node o).sock (.inbound 0) = fd6 ∧ mid.wire o fd6 = some ⟨replyLink w o, .called⟩ ∧
      mid.medium = carrying a w o [⟨⟨replyLink w o, .called⟩, reply⟩] := by
    refine ⟨_, accept, ?_, ?_, ?_⟩
    · simp [Net.store]
    · simp [Net.store, Net.pickUp, Net.plug]
    · simpa [Net.store, Net.pickUp, Net.plug] using replied.medium
  have live : 0 < ((mid.node o).sock (.inbound 0)).val := by
    rw [here]
    decide
  exact ⟨mid, _, accept, .delivered rfl live (by rw [here, wired])
    (by rw [medium]; exact .first [] [] rfl (by simp)) (step_receive _ _ _ reply rfl live (.inr type))⟩

/-- A request of node `a` in the name of node 1 is answered to the node with that id:
what this node has received and what was computed for it. -/
theorem exchange_run (id : ι → Int) (a w o : ι) (worker : id w = 2) (owner : id o = 1)
    (foreign : id a ≠ 2) (asker : UInt16.ofInt (id a) = 1)
    (workers : (asking (id a)).findAllWorkers (id a) = [2]) :
    ∃ last steps, Run (withHistory Net.Step note) (Net.boot id fun _ => .zeroed, []) steps last ∧
      received o w last.2 = {(0, -1)} ∧ computed o w last.2 = if a = o then {(0, -1)} else 0 := by
  have otherOwner : o ≠ w := by
    intro same
    rw [same, worker] at owner
    cases owner
  have otherAsker : a ≠ w := by
    intro same
    rw [same] at foreign
    exact foreign worker
  obtain ⟨n3, steps, run, ready⟩ := ready_run worker owner foreign otherOwner otherAsker
  obtain ⟨msg, n4, asks, request, asked⟩ := asked_step ready otherAsker workers
  obtain ⟨reply, n5, answers, type, result, replied⟩ := replied_step asked otherOwner request asker
  obtain ⟨n6, n7, accepts, reads⟩ := answer_read replied type
  have whole := (((run.snoc (observed asks note [])).snoc (observed answers note [])).snoc
    (observed accepts note _)).snoc (observed reads note _)
  have ran : runWasmRequest noEnvironment msg.payload = .ok (-1) :=
    request.runs (by decide) (by decide) rfl
  refine ⟨_, _, whole, ?_, ?_⟩
  · simp [received, note, resultOf, End.far, End.near, End.opposite, requestLink, replyLink,
      request.type, type, result, otherOwner.symm]
  · have asked : computedFor o w ⟨⟨requestLink a w, .called⟩, msg, noEnvironment⟩ =
        if a = o then some (0, -1) else none := by
      simp [computedFor, End.far, End.near, End.opposite, requestLink, request.type, request.header,
        ran]
    have answered : computedFor o w ⟨⟨replyLink w o, .called⟩, reply, .refusing⟩ = none := by
      simp [computedFor, End.near, replyLink, otherOwner]
    simp only [computed, note, List.foldl_cons, List.foldl_nil, List.nil_append, List.cons_append,
      List.filterMap_cons, List.filterMap_nil, asked, answered]
    by_cases same : a = o
    · simp [same]
    · simp [same]

end Exchange

/-- Node 1 asks node 2 and receives one result, next to two nodes that send as node 20. -/
theorem results_genuine_pair : ∃ last steps,
    Run (withHistory Net.Step note) (Net.boot ![1, 2, 20, 65556] fun _ => .zeroed, []) steps last ∧
      received 0 1 last.2 = {(0, -1)} ∧
      ∀ requester worker, received requester worker last.2 ≤ computed requester worker last.2 := by
  obtain ⟨last, steps, run, got, _⟩ := exchange_run ![1, 2, 20, 65556] 0 1 0 rfl rfl (by decide)
    (by decide) (by decide)
  have apart : SendersApart ![1, 2, 20, 65556] := by
    unfold SendersApart
    decide
  exact ⟨last, steps, run, got, results_genuine _ (fun _ => .zeroed) apart run⟩

/-- Node 65537 asks node 2, and the result goes to node 1, which has asked nothing. -/
theorem result_to_other_node : ¬ ∀ (ι : Type) [DecidableEq ι] (id : ι → Int)
    (msgBuffer : ι → Message) (_ : ∀ i j, id i = id j → i = j)
    (last : Net ι × List (Delivery ι))
    (steps : List (Transition (Net ι × List (Delivery ι)) (NetEvent ι) (Delivery ι)))
    (_ : Run (withHistory Net.Step note) (Net.boot id msgBuffer, []) steps last),
    ∀ requester worker, received requester worker last.2 ≤ computed requester worker last.2 := by
  intro always
  obtain ⟨last, steps, run, got, none⟩ := exchange_run ![1, 2, 65537] 2 1 0 rfl rfl
    (by decide) (by decide) (by decide)
  have contained := always (Fin 3) ![1, 2, 65537] (fun _ => .zeroed) (by decide) last steps run 0 1
  rw [got, none, if_neg (by decide)] at contained
  exact absurd contained (by decide)

end VelumOS.Guarantees.GenuineResults
