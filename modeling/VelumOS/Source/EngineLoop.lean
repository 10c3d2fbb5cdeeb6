import VelumOS.Source.Engine

/-!
# The rounds of the engine

`velum_engine_loop` of `src/velum_core.cpp` branch by branch: the thread is in one
phase of its round, with the descriptor set of its last `select` and its two timers. An
API call of the user's thread falls between any two phases. What the operating
system contributes to a phase is in `Outside`; each phase reads its own part of it.
-/
namespace VelumOS.Source
open Base.Octets Base.Runs

/-- Where the engine thread is in its round. The read loops start the outgoing table
at 1. -/
inductive Phase where
  | select | beaconTimer | heartbeatTimer | discovery | accept
  | sock (slot : Slot) (serviced : slot.serviced = true)
  deriving DecidableEq

/-- The first call of `handle_sock` in a round. -/
def Phase.firstSock : Phase := .sock (.peer 1) rfl

/-- The two `for` loops over `handle_sock`, and then the next round. -/
def Phase.afterSock : Slot → Phase
  | .peer i =>
    if more : i.val + 1 < 16 then .sock (.peer ⟨i.val + 1, more⟩) (by simp [Slot.serviced])
    else .sock (.inbound 0) rfl
  | .inbound i =>
    if more : i.val + 1 < 16 then .sock (.inbound ⟨i.val + 1, more⟩) rfl
    else .select

structure Engine where
  node : Node
  serverFd : Sock
  udpFd : Sock
  lastHeartbeat : Int
  lastBeacon : Int
  now : Int
  readfds : Sock → Bool
  phase : Phase

/-- What the operating system and the network contribute to a phase. A failed `select`
leaves the set as it is. -/
structure Outside where
  ready : Option (Sock → Bool)
  now : Int
  cpu : Nat
  queue : Nat
  old : Message
  len : Int
  beacon : Beacon
  connected : Sock
  accepted : Sock
  input : ReadResult
  ctx : ReadContext

/-- What the engine does that can be seen outside its tables. -/
inductive EngineAction where
  | node (a : Action)
  | beaconSent (b : Beacon)

namespace Engine

/-- The `FD_SET` calls before `select`. -/
def watched (e : Engine) (fd : Sock) : Bool :=
  fd = e.serverFd || (0 < e.udpFd.val && fd = e.udpFd) ||
    (List.finRange 16).any (fun i => i.val ≠ 0 && 0 < (e.node.peerSockets i).val &&
      fd = e.node.peerSockets i) ||
    (List.finRange 16).any (fun i => 0 < (e.node.inboundSockets i).val &&
      fd = e.node.inboundSockets i)

/-- The set after `select`. -/
def selected (e : Engine) : Option (Sock → Bool) → Sock → Bool
  | none => e.watched
  | some ready => fun fd => e.watched fd && ready fd

/-- The beacon that `send_udp_beacon` broadcasts. -/
def ownBeacon (e : Engine) : Beacon where
  magic := 0xCAFEBABE
  nodeId := e.node.myNodeId
  tcpPort := 8000 + e.node.myNodeId

/-- The node after a branch, in the next phase. -/
def proceed (e : Engine) (next : Phase) (branch : Node × List Action) :
    Engine × List EngineAction :=
  ({ e with node := branch.1, phase := next }, branch.2.map .node)

/-- The phase that the engine thread is in. -/
def branch (e : Engine) (o : Outside) : Except Fault (Engine × List EngineAction) :=
  match e.phase with
  | .select =>
    .ok ({ e with readfds := e.selected o.ready, now := o.now, phase := .beaconTimer }, [])
  | .beaconTimer =>
    if e.now - e.lastBeacon > 3000 then
      .ok ({ e with lastBeacon := e.now, phase := .heartbeatTimer },
        if 0 < e.udpFd.val then [.beaconSent e.ownBeacon] else [])
    else .ok ({ e with phase := .heartbeatTimer }, [])
  | .heartbeatTimer =>
    if e.now - e.lastHeartbeat > 500 then
      .ok ({ e with lastHeartbeat := e.now, phase := .discovery },
        (e.node.heartbeat o.cpu o.queue o.old).map .node)
    else .ok ({ e with phase := .discovery }, [])
  | .discovery =>
    if 0 < e.udpFd.val ∧ e.readfds e.udpFd then do
      let after ← e.node.receiveBeacon o.len o.beacon o.connected
      .ok (e.proceed .accept after)
    else .ok ({ e with phase := .accept }, [])
  | .accept =>
    if e.readfds e.serverFd then
      .ok (e.proceed .firstSock (e.node.acceptConnection o.accepted))
    else .ok ({ e with phase := .firstSock }, [])
  | .sock slot _ =>
    if 0 < (e.node.sock slot).val ∧ e.readfds (e.node.sock slot) then do
      let after ← e.node.handleSock o.ctx slot o.input
      .ok (e.proceed (.afterSock slot) after)
    else .ok ({ e with phase := .afterSock slot }, [])

end Engine

/-- A call of the user's thread. -/
inductive ApiCall where
  | spawnWasm (ctx : SpawnContext) (file : Option File) (func : List UInt8)
      (args : List (List UInt8))
  | distributed (ctx : SpawnContext) (file : Option File) (func : List UInt8) (start stop : Int32)

def ApiCall.event : ApiCall → Event
  | .spawnWasm ctx file func args => .spawnWasm ctx file func args
  | .distributed ctx file func start stop => .distributed ctx file func start stop

/-- One phase of the engine thread, or one call of the user's thread. -/
inductive EngineEvent where
  | branch (o : Outside)
  | call (api : ApiCall)

def Engine.step (e : Engine) : EngineEvent → Except Fault (Engine × List EngineAction)
  | .branch o => e.branch o
  | .call api => do
    let after ← e.node.step api.event
    .ok (e.proceed e.phase after)

/-- A descriptor that the operating system may return: -1, or one that is not open. The
server's and the discovery socket are open throughout. -/
def Engine.Fresh (e : Engine) (fd : Sock) : Prop :=
  e.node.Fresh fd ∧ fd ≠ e.serverFd ∧ (0 < e.udpFd.val → fd ≠ e.udpFd)

def Engine.Admissible (e : Engine) : EngineEvent → Prop
  | .branch o => e.Fresh o.connected ∧ e.Fresh o.accepted
  | .call _ => True

/-- A completed step of the engine. -/
def Engine.Step (e : Engine) (event : EngineEvent) (actions : List EngineAction)
    (after : Engine) : Prop :=
  e.Admissible event ∧ e.step event = .ok (after, actions)

/-- `velum_engine_loop` before its first round. Nothing set `readfds` and `now` yet. -/
def Engine.boot (myNodeId : Int) (msgBuffer : Message) (serverFd udpFd : Sock)
    (lastHeartbeat lastBeacon now : Int) (readfds : Sock → Bool) : Engine where
  node := .boot myNodeId msgBuffer
  serverFd := serverFd
  udpFd := udpFd
  lastHeartbeat := lastHeartbeat
  lastBeacon := lastBeacon
  now := now
  readfds := readfds
  phase := .select

/-! ## What a step of the engine can do -/

/-- Everything a completed step can do: a step of the node, or a phase that leaves it. -/
inductive Advance (e : Engine) : EngineEvent → List EngineAction → Engine → Prop
  | called {api : ApiCall} {actions : List Action} {s : Node}
      (step : e.node.Step api.event actions s) :
      Advance e (.call api) (actions.map .node) { e with node := s }
  | selected {o : Outside} (phase : e.phase = .select) :
      Advance e (.branch o) []
        { e with readfds := e.selected o.ready, now := o.now, phase := .beaconTimer }
  | announced {o : Outside} {actions : List EngineAction} (phase : e.phase = .beaconTimer)
      (due : e.now - e.lastBeacon > 3000)
      (sent : actions = if 0 < e.udpFd.val then [.beaconSent e.ownBeacon] else []) :
      Advance e (.branch o) actions { e with lastBeacon := e.now, phase := .heartbeatTimer }
  | reported {o : Outside} (phase : e.phase = .heartbeatTimer)
      (due : e.now - e.lastHeartbeat > 500) :
      Advance e (.branch o) ((e.node.heartbeat o.cpu o.queue o.old).map .node)
        { e with lastHeartbeat := e.now, phase := .discovery }
  | heard {o : Outside} {actions : List Action} {s : Node} (phase : e.phase = .discovery)
      (step : e.node.Step (.beacon o.len o.beacon o.connected) actions s)
      (fresh : e.Fresh o.connected) (readable : 0 < e.udpFd.val ∧ e.readfds e.udpFd = true) :
      Advance e (.branch o) (actions.map .node) { e with node := s, phase := .accept }
  | accepted {o : Outside} {actions : List Action} {s : Node} (phase : e.phase = .accept)
      (step : e.node.Step (.accept o.accepted) actions s) (fresh : e.Fresh o.accepted)
      (readable : e.readfds e.serverFd = true) :
      Advance e (.branch o) (actions.map .node) { e with node := s, phase := .firstSock }
  | handled {o : Outside} {actions : List Action} {s : Node} {slot : Slot}
      {serviced : slot.serviced = true} (phase : e.phase = .sock slot serviced)
      (live : 0 < (e.node.sock slot).val) (readable : e.readfds (e.node.sock slot) = true)
      (step : e.node.Step (.read slot o.input o.ctx) actions s) :
      Advance e (.branch o) (actions.map .node) { e with node := s, phase := .afterSock slot }
  | passed {o : Outside} (next : Phase)
      (idle : (e.phase = .beaconTimer ∧ next = .heartbeatTimer ∧ e.now - e.lastBeacon ≤ 3000) ∨
        (e.phase = .heartbeatTimer ∧ next = .discovery ∧ e.now - e.lastHeartbeat ≤ 500) ∨
        (e.phase = .discovery ∧ next = .accept ∧
          ¬ (0 < e.udpFd.val ∧ e.readfds e.udpFd = true)) ∨
        (e.phase = .accept ∧ next = .firstSock ∧ e.readfds e.serverFd ≠ true) ∨
        ∃ slot serviced, e.phase = .sock slot serviced ∧ next = .afterSock slot ∧
          ¬ (0 < (e.node.sock slot).val ∧ e.readfds (e.node.sock slot) = true)) :
      Advance e (.branch o) [] { e with phase := next }

/-- The inversion of a completed step of the engine. -/
theorem Engine.Step.advance {e after : Engine} {event : EngineEvent}
    {actions : List EngineAction} (step : e.Step event actions after) :
    Advance e event actions after := by
  obtain ⟨admissible, success⟩ := step
  cases event with
  | call api =>
    obtain ⟨⟨s, acts⟩, called, success⟩ := bind_success success
    cases success
    refine .called ⟨?_, called⟩
    cases api <;> trivial
  | branch o =>
    obtain ⟨freshConnected, freshAccepted⟩ := admissible
    simp only [Engine.step, Engine.branch] at success
    split at success
    · next phase =>
      cases success
      exact .selected phase
    · next phase =>
      split at success
      · next due =>
        cases success
        exact .announced phase due rfl
      · next early =>
        cases success
        exact .passed _ (.inl ⟨phase, rfl, not_lt.mp early⟩)
    · next phase =>
      split at success
      · next due =>
        cases success
        exact .reported phase due
      · next early =>
        cases success
        exact .passed _ (.inr (.inl ⟨phase, rfl, not_lt.mp early⟩))
    · next phase =>
      split at success
      · next readable =>
        obtain ⟨⟨s, acts⟩, received, success⟩ := bind_success success
        cases success
        exact .heard phase ⟨freshConnected.1, received⟩ freshConnected readable
      · next silent =>
        cases success
        exact .passed _ (.inr (.inr (.inl ⟨phase, rfl, silent⟩)))
    · next phase =>
      split at success
      · next readable =>
        cases success
        exact .accepted phase ⟨freshAccepted.1, rfl⟩ freshAccepted readable
      · next silent =>
        cases success
        exact .passed _ (.inr (.inr (.inr (.inl ⟨phase, rfl, silent⟩))))
    · next slot serviced phase =>
      split at success
      · next readable =>
        obtain ⟨⟨s, acts⟩, handled, success⟩ := bind_success success
        cases success
        refine .handled phase readable.1 readable.2 ⟨trivial, ?_⟩
        simp only [Node.step, serviced, if_true]
        exact handled
      · next idle =>
        cases success
        exact .passed _ (.inr (.inr (.inr (.inr ⟨slot, serviced, phase, rfl, idle⟩))))

/-- And every such advance is a step, if the operating system can take part in it. -/
theorem Advance.step {e after : Engine} {event : EngineEvent} {actions : List EngineAction}
    (advance : Advance e event actions after) (admissible : e.Admissible event) :
    e.Step event actions after := by
  refine ⟨admissible, ?_⟩
  cases advance with
  | called step => exact bind_of_ok step.2 _
  | selected phase => simp only [Engine.step, Engine.branch, phase]
  | announced phase due sent => simp only [Engine.step, Engine.branch, phase, if_pos due, sent]
  | reported phase due => simp only [Engine.step, Engine.branch, phase, if_pos due]
  | heard phase step _ readable =>
    simp only [Engine.step, Engine.branch, phase, if_pos readable]
    exact bind_of_ok step.2 _
  | @accepted o actions s phase step _ readable =>
    have accepted : e.node.acceptConnection o.accepted = (s, actions) := Except.ok.inj step.2
    simp only [Engine.step, Engine.branch, phase, if_pos readable, accepted]
    rfl
  | @handled o actions s slot serviced phase live readable step =>
    have handled : e.node.handleSock o.ctx slot o.input = .ok (s, actions) := by
      have success := step.2
      rwa [Node.step, if_pos serviced] at success
    simp only [Engine.step, Engine.branch, phase, if_pos (And.intro live readable)]
    exact bind_of_ok handled _
  | passed next idle =>
    rcases idle with ⟨phase, rfl, early⟩ | ⟨phase, rfl, early⟩ | ⟨phase, rfl, silent⟩ |
      ⟨phase, rfl, silent⟩ | ⟨slot, serviced, phase, rfl, silent⟩
    · simp only [Engine.step, Engine.branch, phase, if_neg (not_lt.mpr early)]
    · simp only [Engine.step, Engine.branch, phase, if_neg (not_lt.mpr early)]
    · simp only [Engine.step, Engine.branch, phase, if_neg silent]
    · simp only [Engine.step, Engine.branch, phase, if_neg silent]
    · simp only [Engine.step, Engine.branch, phase, if_neg silent]

end VelumOS.Source
