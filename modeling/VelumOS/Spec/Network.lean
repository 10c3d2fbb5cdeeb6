import VelumOS.Spec.Traffic
import VelumOS.Base.Links

/-!
# A network of nodes

Any number of nodes, each with its own engine and tables, and the links between them. A
node that hears the beacon of another opens a link to it, which waits in the other
node's backlog until it is accepted. What a completed step of a node sends goes over the
link behind the descriptor; a link is cut when one of its ends closes it, and it may
break at any time. A node whose thread faults has no completed step any more.
-/
namespace VelumOS.Spec
open VelumOS.Source Base.Links Base.Runs

/-- The nodes, the links, and how the two are connected. -/
structure Net (ι : Type) where
  node : ι → Node
  medium : Medium ι Message
  wire : ι → Sock → Option (End ι)
  backlog : ι → List (End ι)

/-- `send_udp_beacon(udp_fd, my_node_id, 8000 + my_node_id)`. -/
def ownBeacon (s : Node) : Beacon := ⟨0xCAFEBABE, s.myNodeId, 8000 + s.myNodeId⟩

/-- What happens in the network, and where. -/
inductive NetEvent (ι : Type) where
  | own (i : ι) (event : Event)
  | beacon (i sender : ι) (fd : Sock)
  | accept (i : ι) (fd : Sock)
  | deliver (i : ι) (slot : Slot) (ctx : ReadContext)
  | fail (i : ι) (slot : Slot) (ctx : ReadContext)
  | cut (link : Link ι)

/-- A message that a node read and handled to the end. -/
structure Delivery (ι : Type) where
  dest : End ι
  msg : Message
  ctx : ReadContext

namespace Net
variable {ι : Type} [DecidableEq ι]

/-- Every node has started, and no link was opened. -/
def boot (id : ι → Int) (msgBuffer : ι → Message) : Net ι where
  node i := .boot (id i) (msgBuffer i)
  medium := .empty
  wire _ _ := none
  backlog _ := []

def store (net : Net ι) (i : ι) (s : Node) : Net ι :=
  { net with node := Function.update net.node i s }

def plug (net : Net ι) (i : ι) (fd : Sock) (e : Option (End ι)) : Net ι :=
  { net with wire := Function.update net.wire i (Function.update (net.wire i) fd e) }

/-- `send` on a descriptor. -/
def send (net : Net ι) (i : ι) (fd : Sock) (msg : Message) : Net ι :=
  match net.wire i fd with
  | some e => { net with medium := net.medium.post e msg }
  | none => net

/-- `close` on a descriptor. -/
def hangUp (net : Net ι) (i : ι) (fd : Sock) : Net ι :=
  match net.wire i fd with
  | some e => { net.plug i fd none with medium := net.medium.cut e.link }
  | none => net

/-- What an action of a node does to the links. -/
def perform (i : ι) (net : Net ι) : Action → Net ι
  | .sent fd msg => net.send i fd msg
  | .dispatched _ task => net.send i task.fd task.msg
  | .closed fd => net.hangUp i fd
  | _ => net

/-- The network after a step of one node. -/
def after (net : Net ι) (i : ι) (s : Node) (actions : List Action) : Net ι :=
  actions.foldl (perform i) (net.store i s)

/-- A new link from the node behind a descriptor to the node that sent the beacon. -/
def connect (net : Net ι) (i called : ι) (fd : Sock) : Net ι :=
  let link := net.medium.next i called
  { net.plug i fd (some ⟨link, .opener⟩) with
    medium := net.medium.connect i called
    backlog := Function.update net.backlog called (net.backlog called ++ [⟨link, .called⟩]) }

/-- The oldest waiting link is accepted on a descriptor. -/
def pickUp (net : Net ι) (i : ι) (fd : Sock) (e : End ι) (rest : List (End ι)) : Net ι :=
  { net.plug i fd (some e) with backlog := Function.update net.backlog i rest }

/-- A completed step somewhere in the network, with the message it handled, if any. -/
inductive Step : Net ι → NetEvent ι → List (Delivery ι) → Net ι → Prop
  | own {net : Net ι} {i : ι} {event : Event} {actions : List Action} {s : Node}
      (alone : Alone event) (step : (net.node i).Step event actions s) :
      Step net (.own i event) [] (net.after i s actions)
  | heard {net : Net ι} {i sender : ι} {fd : Sock} {s : Node}
      (step : (net.node i).Step (.beacon 12 (ownBeacon (net.node sender)) fd) [] s) :
      Step net (.beacon i sender fd) [] (net.store i s)
  | connected {net : Net ι} {i sender : ι} {fd : Sock} {nodeId : Nat} {s : Node}
      (step : (net.node i).Step (.beacon 12 (ownBeacon (net.node sender)) fd)
        [.connected nodeId fd] s) :
      Step net (.beacon i sender fd) [] ((net.connect i sender fd).store i s)
  | accepted {net : Net ι} {i : ι} {fd : Sock} {e : End ι} {rest : List (End ι)}
      {actions : List Action} {s : Node} (waiting : net.backlog i = e :: rest) (live : 0 < fd.val)
      (step : (net.node i).Step (.accept fd) actions s) :
      Step net (.accept i fd) [] ((net.pickUp i fd e rest).after i s actions)
  | delivered {net : Net ι} {i : ι} {slot : Slot} {ctx : ReadContext} {e : End ι} {msg : Message}
      {left : Medium ι Message} {actions : List Action} {s : Node} (serviced : slot.serviced)
      (live : 0 < ((net.node i).sock slot).val) (wired : net.wire i ((net.node i).sock slot) = some e)
      (taken : net.medium.Takes e msg left)
      (step : (net.node i).Step (readWhole slot msg ctx) actions s) :
      Step net (.deliver i slot ctx) [⟨e, msg, ctx⟩] ({ net with medium := left }.after i s actions)
  | failed {net : Net ι} {i : ι} {slot : Slot} {ctx : ReadContext} {actions : List Action} {s : Node}
      (serviced : slot.serviced) (live : 0 < ((net.node i).sock slot).val)
      (step : (net.node i).Step (.read slot .failed ctx) actions s) :
      Step net (.fail i slot ctx) [] (net.after i s actions)
  | broke {net : Net ι} (link : Link ι) :
      Step net (.cut link) [] { net with medium := net.medium.cut link }

end Net

/-! ## What the network keeps -/

section Network
variable {ι : Type} [DecidableEq ι] {id : ι → Int}

/-- Descriptors are wired to ends of their own node, an outgoing connection leads to the
node with its id, and what is in flight carries the 16-bit id of the node it came from. -/
structure Sound (id : ι → Int) (net : Net ι) : Prop where
  identity : ∀ i, (net.node i).myNodeId = id i
  distinct : ∀ i, Distinct (net.node i)
  wired : ∀ i fd e, net.wire i fd = some e → e.near = i
  waiting : ∀ i, ∀ e ∈ net.backlog i, e.near = i
  peers : ∀ i k, 0 < ((net.node i).peerSockets k).val →
    ∃ e, net.wire i ((net.node i).peerSockets k) = some e ∧ id e.far = k.val
  flight : ∀ p ∈ net.medium.flight, p.msg.senderId = UInt16.ofInt (id p.dest.far) ∧ Ours p.msg

omit [DecidableEq ι] in
theorem sound_boot (id : ι → Int) (msgBuffer : ι → Message) : Sound id (Net.boot id msgBuffer) where
  identity _ := rfl
  distinct i := distinct_boot (id i) (msgBuffer i)
  wired _ _ _ none := by cases none
  waiting _ _ member := by cases member
  peers _ _ live := absurd live (lt_irrefl 0)
  flight _ member := by cases member

namespace Sound
variable {net : Net ι} {i : ι}

/-- A node may take a step that leaves its outgoing connections as they were. -/
theorem store (sound : Sound id net) {s : Node} (identity : s.myNodeId = (net.node i).myNodeId)
    (distinct : Distinct s) (peers : ∀ k, 0 < (s.peerSockets k).val →
      ∃ e, net.wire i (s.peerSockets k) = some e ∧ id e.far = k.val) :
    Sound id (net.store i s) where
  identity j := by
    by_cases same : j = i
    · subst same
      simp [Net.store, identity, sound.identity]
    · simp [Net.store, same, sound.identity]
  distinct j := by
    by_cases same : j = i
    · subst same
      simpa [Net.store] using distinct
    · simpa [Net.store, same] using sound.distinct j
  wired := sound.wired
  waiting := sound.waiting
  peers j := by
    by_cases same : j = i
    · subst same
      simpa [Net.store] using peers
    · simpa [Net.store, same] using sound.peers j
  flight := sound.flight

omit [DecidableEq ι] in
/-- What is in flight may get less. -/
theorem lose (sound : Sound id net) {m : Medium ι Message}
    (less : ∀ p ∈ m.flight, p ∈ net.medium.flight) : Sound id { net with medium := m } :=
  { sound with flight := fun p member => sound.flight p (less p member) }

theorem send (sound : Sound id net) {fd : Sock} {msg : Message}
    (sender : msg.senderId = UInt16.ofInt (id i)) (ours : Ours msg) :
    Sound id (net.send i fd msg) := by
  unfold Net.send
  split
  · next e wired =>
    refine { sound with flight := fun p member => ?_ }
    rcases Medium.mem_flight_post member with old | rfl
    · exact sound.flight p old
    · rw [End.far_opposite, sound.wired i fd e wired]
      exact ⟨sender, ours⟩
  · exact sound

/-- A descriptor that no outgoing connection uses may be wired anew. -/
theorem plug (sound : Sound id net) {fd : Sock} {e : Option (End ι)}
    (own : ∀ end_, e = some end_ → end_.near = i)
    (unused : ∀ k, 0 < ((net.node i).peerSockets k).val → (net.node i).peerSockets k ≠ fd) :
    Sound id (net.plug i fd e) where
  identity := sound.identity
  distinct := sound.distinct
  wired j x end_ wired := by
    by_cases same : j = i
    · subst same
      simp only [Net.plug, Function.update_self] at wired
      by_cases here : x = fd
      · rw [here, Function.update_self] at wired
        exact own end_ wired
      · rw [Function.update_of_ne here] at wired
        exact sound.wired j x end_ wired
    · simp only [Net.plug, Function.update_of_ne same] at wired
      exact sound.wired j x end_ wired
  waiting := sound.waiting
  peers j k live := by
    by_cases same : j = i
    · subst same
      simp only [Net.plug, Function.update_self]
      rw [Function.update_of_ne (unused k live)]
      exact sound.peers j k live
    · simp only [Net.plug, Function.update_of_ne same]
      exact sound.peers j k live
  flight := sound.flight

theorem hangUp (sound : Sound id net) {fd : Sock}
    (unused : ∀ k, 0 < ((net.node i).peerSockets k).val → (net.node i).peerSockets k ≠ fd) :
    Sound id (net.hangUp i fd) := by
  unfold Net.hangUp
  split
  · next e _ =>
    exact (sound.plug (by simp) unused).lose fun p member =>
      (net.medium.flight_cut_sublist e.link).mem member
  · exact sound

theorem node_perform (net : Net ι) (i : ι) (a : Action) : (net.perform i a).node = net.node := by
  cases a with
  | sent fd msg =>
    simp only [Net.perform, Net.send]
    split <;> rfl
  | dispatched call task =>
    simp only [Net.perform, Net.send]
    split <;> rfl
  | closed fd =>
    simp only [Net.perform, Net.hangUp]
    split <;> rfl
  | _ => rfl

theorem perform (sound : Sound id net) {a : Action}
    (sends : ∀ fd msg, handed a = some (fd, msg) → msg.senderId = UInt16.ofInt (id i) ∧ Ours msg)
    (closes : ∀ fd, a = .closed fd → ∀ k, 0 < ((net.node i).peerSockets k).val →
      (net.node i).peerSockets k ≠ fd) : Sound id (net.perform i a) := by
  cases a with
  | sent fd msg =>
    obtain ⟨sender, ours⟩ := sends fd msg rfl
    exact sound.send sender ours
  | dispatched call task =>
    obtain ⟨sender, ours⟩ := sends task.fd task.msg rfl
    exact sound.send sender ours
  | closed fd => exact sound.hangUp (closes fd rfl)
  | _ => exact sound

/-- All actions of a step. -/
theorem performs (sound : Sound id net) {actions : List Action}
    (sends : ∀ a ∈ actions, ∀ fd msg, handed a = some (fd, msg) →
      msg.senderId = UInt16.ofInt (id i) ∧ Ours msg)
    (closes : ∀ fd, .closed fd ∈ actions → ∀ k, 0 < ((net.node i).peerSockets k).val →
      (net.node i).peerSockets k ≠ fd) : Sound id (actions.foldl (Net.perform i) net) := by
  induction actions generalizing net with
  | nil => exact sound
  | cons a rest ih =>
    rw [List.foldl_cons]
    apply ih (sound.perform (sends a List.mem_cons_self) ?_)
    · exact fun b member => sends b (List.mem_cons_of_mem a member)
    · intro fd member
      rw [node_perform]
      exact closes fd (List.mem_cons_of_mem a member)
    · intro fd same
      exact closes fd (same ▸ List.mem_cons_self)

/-- A step of a node that keeps its outgoing connections, or closes one. -/
theorem after (sound : Sound id net) {event : Event} {actions : List Action} {s : Node}
    (step : (net.node i).Step event actions s)
    (peers : ∀ k, 0 < (s.peerSockets k).val → s.peerSockets k = (net.node i).peerSockets k)
    (sends : ∀ a ∈ actions, ∀ fd msg, handed a = some (fd, msg) →
      msg.senderId = UInt16.ofInt (id i) ∧ Ours msg)
    (closes : ∀ fd, .closed fd ∈ actions → ∀ k, 0 < (s.peerSockets k).val → s.peerSockets k ≠ fd) :
    Sound id (net.after i s actions) := by
  have stored : Sound id (net.store i s) := by
    apply sound.store (myNodeId_of_effect step.effect)
      (distinct_step step.effect (sound.distinct i))
    intro k live
    have same := peers k live
    rw [same] at live ⊢
    exact sound.peers i k live
  apply stored.performs sends
  simpa [Net.store] using closes

/-- A new link belongs to the two nodes that it connects. -/
theorem connect (sound : Sound id net) {called : ι} {fd : Sock}
    (unused : ∀ k, 0 < ((net.node i).peerSockets k).val → (net.node i).peerSockets k ≠ fd) :
    Sound id (net.connect i called fd) := by
  have plugged : Sound id (net.plug i fd (some ⟨net.medium.next i called, .opener⟩)) := by
    apply sound.plug _ unused
    intro e same
    cases same
    rfl
  refine { plugged with waiting := fun j e member => ?_, flight := sound.flight }
  by_cases same : j = called
  · subst same
    simp only [Net.connect, Function.update_self] at member
    rcases List.mem_append.mp member with old | new
    · exact sound.waiting j e old
    · rw [List.mem_singleton.mp new]
      rfl
  · simp only [Net.connect, Function.update_of_ne same] at member
    exact sound.waiting j e member

/-- A link that waited at the node may be accepted there. -/
theorem pickUp (sound : Sound id net) {fd : Sock} {e : End ι} {rest : List (End ι)}
    (waiting : net.backlog i = e :: rest)
    (unused : ∀ k, 0 < ((net.node i).peerSockets k).val → (net.node i).peerSockets k ≠ fd) :
    Sound id (net.pickUp i fd e rest) := by
  have near (x : End ι) (member : x ∈ e :: rest) : x.near = i := by
    rw [← waiting] at member
    exact sound.waiting i x member
  have plugged : Sound id (net.plug i fd (some e)) := by
    apply sound.plug _ unused
    intro x same
    cases same
    exact near e List.mem_cons_self
  refine { plugged with waiting := fun j x member => ?_ }
  by_cases same : j = i
  · subst same
    simp only [Net.pickUp, Function.update_self] at member
    exact near x (List.mem_cons_of_mem e member)
  · simp only [Net.pickUp, Function.update_of_ne same] at member
    exact sound.waiting j x member

end Sound

/-- A step of the network keeps it sound. -/
theorem sound_step {net next : Net ι} {event : NetEvent ι} {deliveries : List (Delivery ι)}
    (step : Net.Step net event deliveries next) (sound : Sound id net) : Sound id next := by
  have unused {i : ι} {fd : Sock} (fresh : (net.node i).Fresh fd) (k : Fin 16)
      (live : 0 < ((net.node i).peerSockets k).val) : (net.node i).peerSockets k ≠ fd :=
    ne_of_fresh fresh ⟨live, .peer k, rfl⟩
  cases step with
  | @own i event actions s alone step =>
    obtain ⟨peers, closes⟩ := peers_of_alone alone step
    apply sound.after step (fun k _ => congrFun peers k)
    · intro a member fd msg sent
      obtain ⟨sender, kind⟩ := handed_of_alone alone step member sent
      rw [sound.identity] at sender
      exact ⟨sender, kind.imp_right .inl⟩
    · intro fd member k live same
      rw [same] at live
      exact absurd (closes fd member) (not_le.mpr live)
  | @heard i sender fd s step =>
    have effect := step.effect
    cases effect with
    | quiet => exact sound.store rfl (sound.distinct i) (sound.peers i)
  | @connected i sender fd nodeId s step =>
    obtain ⟨k, named, fresh, rfl⟩ := connected_cases step
    have opened : Sound id (net.connect i sender fd) :=
      sound.connect fun j _ => fresh (.peer j)
    have distinct := distinct_step step.effect (sound.distinct i)
    apply opened.store (s := afterConnect (net.node i) k fd) rfl distinct
    intro j live
    by_cases same : j = k
    · subst same
      refine ⟨⟨net.medium.next i sender, .opener⟩, ?_, ?_⟩
      · simp [afterConnect, Net.connect, Net.plug]
      · rw [named]
        exact (sound.identity sender).symm
    · simp only [afterConnect, Function.update_of_ne same] at live ⊢
      exact opened.peers i j live
  | @accepted i fd e rest actions s waiting live step =>
    obtain ⟨peers, kinds⟩ := accept_cases step
    have free := unused step.1
    have admitted := sound.pickUp waiting free
    apply admitted.after step (fun k _ => congrFun peers k)
    · intro a member x msg sent
      rcases kinds a member with rfl | rfl
      · cases sent
      · cases sent
    · intro x member k open_
      rcases kinds _ member with same | same
      · cases same
      · cases same
        rw [peers] at open_ ⊢
        exact free k open_
  | @delivered i slot ctx e msg left actions s serviced live wired taken step =>
    obtain ⟨peers, closes⟩ := peers_of_read step
    have less := sound.lose fun p member => taken.mem_flight.2.mem member
    apply less.after step (fun k _ => congrFun peers k)
    · intro a member fd reply sent
      rcases read_cases serviced live (sound.flight _ taken.mem_flight.1).2 step with
        ⟨_, rfl⟩ | ⟨_, value, _, rfl⟩
      · cases List.mem_singleton.mp member
        cases sent
      · rcases List.mem_cons.mp member with rfl | later
        · cases sent
        · split at later
          · cases later
          · cases List.mem_singleton.mp later
            cases sent
            refine ⟨?_, .inr (.inr rfl)⟩
            rw [← sound.identity i]
            rfl
    · intro fd member
      exact absurd member (closes fd)
  | @failed i slot ctx actions s serviced live step =>
    obtain ⟨peers, sends, closes⟩ := failed_cases (sound.distinct i) serviced live step
    apply sound.after step peers _ closes
    intro a member fd msg sent
    rw [sends a member] at sent
    cases sent
  | broke link =>
    exact sound.lose fun p member => (net.medium.flight_cut_sublist link).mem member

end Network
end VelumOS.Spec
