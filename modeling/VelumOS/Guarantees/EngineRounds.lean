import VelumOS.Spec.Rounds
import VelumOS.Spec.Traffic
import VelumOS.Base.Timers

/-!
# The engine's rounds

What `velum_engine_loop` guarantees about its own schedule, whatever the tables hold,
however calls of the user's thread fall between its phases and whatever `select` and
the clock say: each reported connection is read exactly once in a round, no other is
read, and beacons and status reports are sent exactly when they are due.
-/
namespace VelumOS.Guarantees.EngineRounds
open VelumOS.Source VelumOS.Spec Base.Runs Base.Refinement Base.Timers

/-- A status report leaves the node. -/
def isReport : EngineAction → Bool
  | .node (.sent _ msg) => msg.type = .statusReport
  | _ => false

def isBeacon : EngineAction → Bool
  | .beaconSent _ => true
  | _ => false

/-- The time of a step, if it performs an action of a kind. -/
def timeOf (kind : EngineAction → Bool) (t : Transition Engine EngineEvent EngineAction) :
    Option Int :=
  if t.actions.any kind then some t.before.now else none

theorem timeOf_silent (kind : EngineAction → Bool)
    {steps : List (Transition Engine EngineEvent EngineAction)}
    (silent : ∀ t ∈ steps, t.actions = []) : steps.filterMap (timeOf kind) = [] := by
  rw [List.filterMap_eq_nil_iff]
  intro t member
  rw [timeOf, silent t member]
  rfl

theorem actionsOf_silent {steps : List (Transition Engine EngineEvent EngineAction)}
    (silent : ∀ t ∈ steps, t.actions = []) : actionsOf steps = [] :=
  List.flatMap_eq_nil_iff.mpr silent

theorem readsOf_silent {steps : List (Transition Engine EngineEvent EngineAction)}
    (silent : ∀ t ∈ steps, t.actions = []) : steps.flatMap readsIn = [] := by
  rw [List.flatMap_eq_nil_iff]
  intro t member
  rw [readsIn, silent t member]
  rfl

/-! ## A run of two rounds -/

/-- An engine with its server on descriptor 3 and discovery on 4. -/
def booted : Engine := .boot 1 .zeroed ⟨3, by decide⟩ ⟨4, by decide⟩ 0 0 0 fun _ => false

/-- At 4000 ms there is a beacon of node 2, and a connect would return `fd`. -/
def beaconOfTwo (fd : Sock) : Outside :=
  ⟨some fun ready => ready.val = 4, 4000, 0, 0, .zeroed, 12, ⟨0xCAFEBABE, (2 : Fin 16).val, 8002⟩,
    fd, .failed, .failed, .refusing⟩

/-- At 4600 ms there is a report of node 2. -/
def reportOfTwo : Outside :=
  ⟨some fun ready => ready.val = 5, 4600, 0, 0, .zeroed, 0, ⟨0, 0, 0⟩, .failed, .failed,
    .data reportTwo.octets.cells (by simp [reportTwo.octets.size]) reportTwo.octets.size.le,
    .refusing⟩

/-- The engine behind its first round: it is connected to node 2. -/
def metTwo : Engine :=
  { booted with
    node := connectedTwo, lastBeacon := 4000, lastHeartbeat := 4000, now := 4000
    readfds := booted.selected (beaconOfTwo fd5).ready }

/-- The first round: a beacon is sent, there is nobody to report to, and node 2 is heard. -/
theorem run_metTwo : ∃ steps, Run Engine.Step booted steps metTwo ∧
    actionsOf steps = [.beaconSent booted.ownBeacon, .node (.connected 2 fd5)] ∧
    steps.filterMap (timeOf isBeacon) = [4000] ∧ steps.filterMap (timeOf isReport) = [] := by
  have unused : ∀ slot, booted.node.sock slot ≠ fd5 := fun slot => by
    rw [booted, Engine.boot, sock_boot]
    decide
  have failed : metTwo.Fresh .failed := ⟨.inl rfl, by decide, by decide⟩
  have opens : booted.Admissible (.branch (beaconOfTwo fd5)) :=
    ⟨⟨.inr ⟨by decide, unused⟩, by decide, by decide⟩, ⟨.inl rfl, by decide, by decide⟩⟩
  have selected : booted.Step (.branch (beaconOfTwo fd5)) []
      { metTwo with
        node := booted.node, lastBeacon := 0, lastHeartbeat := 0, phase := .beaconTimer } :=
    (Advance.selected rfl).step opens
  have announced : Engine.Step
      { metTwo with
        node := booted.node, lastBeacon := 0, lastHeartbeat := 0, phase := .beaconTimer }
      (.branch (beaconOfTwo fd5)) [.beaconSent booted.ownBeacon]
      { metTwo with node := booted.node, lastHeartbeat := 0, phase := .heartbeatTimer } :=
    (Advance.announced rfl (by decide) rfl).step opens
  have reported : Engine.Step
      { metTwo with node := booted.node, lastHeartbeat := 0, phase := .heartbeatTimer }
      (.branch (beaconOfTwo fd5)) [] { metTwo with node := booted.node, phase := .discovery } :=
    (Advance.reported rfl (by decide)).step opens
  have heard : Engine.Step { metTwo with node := booted.node, phase := .discovery }
      (.branch (beaconOfTwo fd5)) [.node (.connected 2 fd5)] { metTwo with phase := .accept } :=
    (Advance.heard (e := { metTwo with node := booted.node, phase := .discovery })
      (o := beaconOfTwo fd5) rfl step_connectTwo opens.1 ⟨by decide, by decide⟩).step opens
  have passed : Engine.Step { metTwo with phase := .accept } (.branch (beaconOfTwo .failed)) []
      { metTwo with phase := .firstSock } :=
    (Advance.passed _ (.inr (.inr (.inr (.inl ⟨rfl, rfl, by decide⟩))))).step ⟨failed, failed⟩
  obtain ⟨rest, idle, silent⟩ := run_idle (o := beaconOfTwo .failed)
    (e := { metTwo with phase := .firstSock }) ⟨failed, failed⟩ rfl (by
      intro slot _ reported
      have held := connectedTwo_sock slot
      change Reported metTwo.readfds (connectedTwo.sock slot) at reported
      rw [held] at reported
      split at reported
      · exact absurd reported.2 (by decide)
      · exact absurd reported.1 (by decide))
  have front := ((((Run.single selected).snoc announced).snoc reported).snoc heard).snoc passed
  have quiet : ∀ t ∈ rest, t.actions = [] := fun t member => (silent t member).1
  refine ⟨_, Run.append front idle, ?_, ?_, ?_⟩
  · rw [actionsOf_append, actionsOf_silent quiet]
    rfl
  · rw [List.filterMap_append, timeOf_silent isBeacon quiet]
    rfl
  · rw [List.filterMap_append, timeOf_silent isReport quiet]
    rfl

/-- The second round begins. -/
def waked : Engine :=
  { metTwo with
    readfds := metTwo.selected reportOfTwo.ready, now := 4600, phase := .beaconTimer }

/-- The second round behind its heartbeat. -/
def wakedAt (s : Node) (phase : Phase) : Engine :=
  { waked with node := s, lastHeartbeat := 4600, phase := phase }

/-- What node 2 is sent in the second round. -/
def reportOfOne : Message := connectedTwo.statusReport 0 0 .zeroed

theorem failed_fresh {e : Engine} (server : e.serverFd = booted.serverFd)
    (udp : e.udpFd = booted.udpFd) : e.Fresh .failed := by
  refine ⟨.inl rfl, ?_, fun _ => ?_⟩
  · rw [server]
    decide
  · rw [udp]
    decide

theorem step_waked : metTwo.Step (.branch reportOfTwo) [] waked :=
  (Advance.selected rfl).step ⟨failed_fresh rfl rfl, failed_fresh rfl rfl⟩

/-- The second round: node 2 is sent a report and read, and a call of the user's thread
sends it a request before the round is over. -/
theorem run_waked : ∃ msg steps last, Run Engine.Step waked steps last ∧ last.phase = .select ∧
    (∀ t ∈ steps, ¬ Selects t) ∧
    actionsOf steps = [.node (.sent fd5 reportOfOne), .node (.received (.peer 2) fd5 reportTwo),
      .node (.dispatched .spawnWasm ⟨2, fd5, msg⟩)] ∧ readsOf steps = [fd5] ∧
    steps.filterMap (timeOf isBeacon) = [] ∧ steps.filterMap (timeOf isReport) = [4600] := by
  obtain ⟨msg, _, spawn⟩ := step_spawn .zeroed [102] readyTwo_winner readyTwo_target
  have spawn : readyTwo.Step
      (ApiCall.event (.spawnWasm .zeroed (some ⟨(0 : Nat), []⟩) [102] [])) _ _ := spawn
  let sent : Node := { readyTwo with clusterStatus := markedBusy readyTwo.clusterStatus 2 }
  have fresh (e : Engine) (server : e.serverFd = booted.serverFd) (udp : e.udpFd = booted.udpFd) :
      e.Admissible (.branch reportOfTwo) := ⟨failed_fresh server udp, failed_fresh server udp⟩
  have early : waked.Step (.branch reportOfTwo) [] { waked with phase := .heartbeatTimer } :=
    (Advance.passed _ (.inl ⟨rfl, rfl, by decide⟩)).step (fresh _ rfl rfl)
  have reported : Engine.Step { waked with phase := .heartbeatTimer } (.branch reportOfTwo)
      [.node (.sent fd5 reportOfOne)] (wakedAt connectedTwo .discovery) :=
    (Advance.reported rfl (by decide)).step (fresh _ rfl rfl)
  have unheard : (wakedAt connectedTwo .discovery).Step (.branch reportOfTwo) []
      (wakedAt connectedTwo .accept) :=
    (Advance.passed _ (.inr (.inr (.inl ⟨rfl, rfl, by decide⟩)))).step (fresh _ rfl rfl)
  have unasked : (wakedAt connectedTwo .accept).Step (.branch reportOfTwo) []
      (wakedAt connectedTwo .firstSock) :=
    (Advance.passed _ (.inr (.inr (.inr (.inl ⟨rfl, rfl, by decide⟩))))).step (fresh _ rfl rfl)
  have skipped : (wakedAt connectedTwo .firstSock).Step (.branch reportOfTwo) []
      (wakedAt connectedTwo (.sock (.peer 2) rfl)) :=
    (Advance.passed _ (.inr (.inr (.inr (.inr ⟨.peer 1, rfl, rfl, rfl, by decide⟩))))).step
      (fresh _ rfl rfl)
  have read : (wakedAt connectedTwo (.sock (.peer 2) rfl)).Step (.branch reportOfTwo)
      [.node (.received (.peer 2) fd5 reportTwo)] (wakedAt readyTwo (.sock (.peer 3) rfl)) :=
    (Advance.handled (e := wakedAt connectedTwo (.sock (.peer 2) rfl)) (o := reportOfTwo) rfl
      (by decide) (by decide) step_reportTwo).step (fresh _ rfl rfl)
  have called : (wakedAt readyTwo (.sock (.peer 3) rfl)).Step
      (.call (.spawnWasm .zeroed (some ⟨(0 : Nat), []⟩) [102] []))
      [.node (.dispatched .spawnWasm ⟨2, fd5, msg⟩)] (wakedAt sent (.sock (.peer 3) rfl)) :=
    (Advance.called (e := wakedAt readyTwo (.sock (.peer 3) rfl)) spawn).step trivial
  obtain ⟨rest, idle, silent⟩ := run_idle (o := reportOfTwo)
    (e := wakedAt sent (.sock (.peer 3) rfl)) (fresh _ rfl rfl) rfl (by
      intro slot member reported
      have held : sent.sock slot = connectedTwo.sock slot := by cases slot <;> rfl
      change Reported waked.readfds (sent.sock slot) at reported
      have elsewhere : slot ≠ .peer 2 := ne_of_mem_remaining rfl member
      rw [held, connectedTwo_sock, if_neg elsewhere] at reported
      exact absurd reported.1 (by decide))
  have front := ((((((Run.single early).snoc reported).snoc unheard).snoc unasked).snoc skipped).snoc
    read).snoc called
  have quiet : ∀ t ∈ rest, t.actions = [] := fun t member => (silent t member).1
  refine ⟨msg, _, _, Run.append front idle, rfl, ?_, ?_, ?_, ?_, ?_⟩
  · rw [List.forall_mem_append]
    refine ⟨?_, fun t member => (silent t member).2⟩
    intro t member begins
    simp only [List.nil_append, List.cons_append, List.mem_cons, List.not_mem_nil, or_false] at member
    rcases member with rfl | rfl | rfl | rfl | rfl | rfl | rfl <;> cases begins.1
  · rw [actionsOf_append, actionsOf_silent quiet]
    rfl
  · rw [readsOf, List.flatMap_append, readsOf_silent quiet]
    rfl
  · rw [List.filterMap_append, timeOf_silent isBeacon quiet]
    rfl
  · rw [List.filterMap_append, timeOf_silent isReport quiet]
    rfl

/-! ## The loop as the events of a node -/

/-- A run of the engine loop from its start is a run of the node that performs the same
actions and ends in the same state. -/
theorem loop_refines_events (myNodeId : Int) (msgBuffer : Message) (serverFd udpFd : Sock)
    (lastHeartbeat lastBeacon now : Int) (readfds : Sock → Bool) (last : Engine)
    (steps : List (Transition Engine EngineEvent EngineAction))
    (run : Run Engine.Step (.boot myNodeId msgBuffer serverFd udpFd lastHeartbeat lastBeacon now
      readfds) steps last) :
    ∃ seen, Run Node.Step (.boot myNodeId msgBuffer) seen last.node ∧
      actionsOf seen = nodeActions (actionsOf steps) :=
  node_run run

/-- Two rounds with a connect, a report each way and a call of the user's thread. -/
theorem loop_refines_events_booted : ∃ msg last steps seen, Run Engine.Step booted steps last ∧
    Run Node.Step (.boot 1 .zeroed) seen last.node ∧
    actionsOf seen = nodeActions (actionsOf steps) ∧
    actionsOf seen = [.connected 2 fd5, .sent fd5 reportOfOne, .received (.peer 2) fd5 reportTwo,
      .dispatched .spawnWasm ⟨2, fd5, msg⟩] := by
  obtain ⟨first, met, opened, _⟩ := run_metTwo
  obtain ⟨msg, second, last, round, _, _, performed, _⟩ := run_waked
  have run := Run.append (met.snoc step_waked) round
  obtain ⟨seen, node, same⟩ := loop_refines_events 1 .zeroed _ _ _ _ _ _ _ _ run
  refine ⟨msg, last, _, seen, run, node, same, ?_⟩
  rw [same, actionsOf_append, actionsOf_append, opened, performed]
  rfl

/-! ## The reads of a round -/

/-- The open descriptors of a list of distinct entries are distinct. -/
theorem reported_nodup {s : Node} (distinct : Distinct s) (set : Sock → Bool) :
    ((serviceOrder.map s.sock).filter (Reported set)).Nodup := by
  rw [List.filter_map]
  apply List.Nodup.map_on
  · intro first member second _ same
    have reported := (List.mem_filter.mp member).2
    simp only [Function.comp_apply, decide_eq_true_eq] at reported
    exact distinct first second reported.1 same
  · exact serviceOrder_nodup.filter _

/-- In every round of every run, up to any point of the round: the descriptors read so
far, and then those reported for the entries still ahead, are the open descriptors of
the serviced entries at the time of `select` that it reported, in table order and each
once. At the end of the round nothing is ahead. -/
theorem round_reads (myNodeId : Int) (msgBuffer : Message) (serverFd udpFd : Sock)
    (lastHeartbeat lastBeacon now : Int) (readfds : Sock → Bool) (before after last : Engine)
    (past steps : List (Transition Engine EngineEvent EngineAction)) (o : Outside)
    (actions : List EngineAction)
    (run : Run Engine.Step (.boot myNodeId msgBuffer serverFd udpFd lastHeartbeat lastBeacon now
      readfds) past before)
    (phase : before.phase = .select) (selects : before.Step (.branch o) actions after)
    (round : Run Engine.Step after steps last) (within : ∀ t ∈ steps, ¬ Selects t) :
    readsOf steps ++
        ((remaining last.phase).map before.node.sock).filter (Reported (before.selected o.ready)) =
      (serviceOrder.map before.node.sock).filter (Reported (before.selected o.ready)) ∧
    (readsOf steps).Nodup := by
  have began : after =
      { before with readfds := before.selected o.ready, now := o.now, phase := .beaconTimer } := by
    have success := selects.2
    simp only [Engine.step, Engine.branch, phase, Except.ok.injEq, Prod.mk.injEq] at success
    exact success.1.symm
  rw [began] at round
  have account := ((inRound_select before o).run round within).account
  rw [List.nil_append] at account
  have unique := reported_nodup (distinct_engine run rfl).1 (before.selected o.ready)
  rw [← account] at unique
  exact ⟨account, (List.nodup_append.mp unique).1⟩

/-- The second round reads the connection to node 2, which the first one opened. -/
theorem round_reads_waked : ∃ past steps last, Run Engine.Step booted past metTwo ∧
    Run Engine.Step waked steps last ∧ last.phase = .select ∧ readsOf steps = [fd5] ∧
    readsOf steps ++ ((remaining last.phase).map metTwo.node.sock).filter
        (Reported (metTwo.selected reportOfTwo.ready)) =
      (serviceOrder.map metTwo.node.sock).filter (Reported (metTwo.selected reportOfTwo.ready)) ∧
    (readsOf steps).Nodup := by
  obtain ⟨past, met, _⟩ := run_metTwo
  obtain ⟨_, steps, last, round, ended, within, _, reads, _⟩ := run_waked
  exact ⟨past, steps, last, met, round, ended, reads, round_reads 1 .zeroed _ _ _ _ _ _ metTwo waked
    last past steps reportOfTwo [] met rfl step_waked round within⟩

/-! ## Reports and beacons -/

/-- The heartbeat branch runs, and its timer is due. -/
def HeartbeatDue (t : Transition Engine EngineEvent EngineAction) : Prop :=
  (∃ o, t.event = .branch o) ∧ t.before.phase = .heartbeatTimer ∧
    500 < t.before.now - t.before.lastHeartbeat

/-- The beacon branch runs, and its timer is due. -/
def BeaconDue (t : Transition Engine EngineEvent EngineAction) : Prop :=
  (∃ o, t.event = .branch o) ∧ t.before.phase = .beaconTimer ∧
    3000 < t.before.now - t.before.lastBeacon

/-- No step of the node announces it. -/
theorem unannounced (actions : List Action) : (actions.map .node).any isBeacon = false := by
  rw [List.any_eq_false]
  intro a member
  obtain ⟨action, _, rfl⟩ := List.mem_map.mp member
  simp [isBeacon]

/-- Outside the heartbeat no step of the node reports. -/
theorem unreported {s after : Node} {event : Event} {actions : List Action}
    (step : s.Step event actions after) (other : ∀ cpu queue old, event ≠ .heartbeat cpu queue old) :
    (actions.map .node).any isReport = false := by
  rw [List.any_eq_false]
  intro a member
  obtain ⟨action, inside, rfl⟩ := List.mem_map.mp member
  cases action with
  | sent fd msg =>
    rcases reply_of_step step other inside with result | progress
    · simp [isReport, result]
    · simp [isReport, progress]
  | _ => simp [isReport]

/-- A heartbeat addresses the open connections in table order, the outgoing one of entry 0
excepted, with one report. -/
theorem heartbeat_eq (s : Node) (cpu queue : Nat) (old : Message) :
    s.heartbeat cpu queue old = ((serviceOrder.map s.sock).filter fun fd => 0 < fd.val).map
      fun fd => .sent fd (s.statusReport cpu queue old) := by
  have nonzero : (List.finRange 16).tail = (List.finRange 16).filter fun i => i.val ≠ 0 := by decide
  rw [Node.heartbeat, serviceOrder, nonzero, List.map_append, List.filter_append, List.map_append]
  simp only [List.map_map, List.filter_map, List.filter_filter]
  congr 2
  simp only [Function.comp_def, Node.sock_peer, Bool.and_comm, Bool.decide_and]

/-- A step leaves the heartbeat's mark and does not report, or the heartbeat is due. -/
theorem heartbeat_cases {t : Transition Engine EngineEvent EngineAction}
    (valid : t.Valid Engine.Step) :
    (¬ HeartbeatDue t ∧ t.after.lastHeartbeat = t.before.lastHeartbeat ∧
      t.actions.any isReport = false) ∨
    (HeartbeatDue t ∧ t.after.lastHeartbeat = t.before.now ∧
      ∃ cpu queue old, t.actions = (t.before.node.heartbeat cpu queue old).map .node) := by
  obtain ⟨before, event, actions, after⟩ := t
  have advance := Engine.Step.advance valid
  have undue {phase : Phase} (here : before.phase = phase) (elsewhere : phase ≠ .heartbeatTimer) :
      ¬ HeartbeatDue ⟨before, event, actions, after⟩ :=
    fun due => elsewhere (here.symm.trans due.2.1)
  dsimp only at advance ⊢
  cases advance with
  | @called api _ _ step =>
    refine .inl ⟨fun due => (by cases due.1.choose_spec), rfl, unreported step ?_⟩
    cases api <;> nofun
  | selected phase => exact .inl ⟨undue phase nofun, rfl, rfl⟩
  | announced phase _ sent =>
    refine .inl ⟨undue phase nofun, rfl, ?_⟩
    rw [sent]
    split <;> rfl
  | @reported o phase due => exact .inr ⟨⟨⟨o, rfl⟩, phase, due⟩, rfl, o.cpu, o.queue, o.old, rfl⟩
  | heard phase step => exact .inl ⟨undue phase nofun, rfl, unreported step nofun⟩
  | accepted phase step => exact .inl ⟨undue phase nofun, rfl, unreported step nofun⟩
  | handled phase _ _ step => exact .inl ⟨undue phase nofun, rfl, unreported step nofun⟩
  | passed next idle =>
    refine .inl ⟨fun due => ?_, rfl, rfl⟩
    rcases idle with ⟨phase, _⟩ | ⟨_, _, early⟩ | ⟨phase, _⟩ | ⟨phase, _⟩ | ⟨_, _, phase, _⟩
    · exact undue phase nofun due
    · exact absurd due.2.2 (not_lt.mpr early)
    · exact undue phase nofun due
    · exact undue phase nofun due
    · exact undue phase nofun due

/-- A step leaves the beacon's mark and sends none, or the beacon is due. -/
theorem beacon_cases {t : Transition Engine EngineEvent EngineAction}
    (valid : t.Valid Engine.Step) :
    (¬ BeaconDue t ∧ t.after.lastBeacon = t.before.lastBeacon ∧
      t.actions.any isBeacon = false) ∨
    (BeaconDue t ∧ t.after.lastBeacon = t.before.now ∧
      t.actions = if 0 < t.before.udpFd.val then [.beaconSent t.before.ownBeacon] else []) := by
  obtain ⟨before, event, actions, after⟩ := t
  have advance := Engine.Step.advance valid
  have undue {phase : Phase} (here : before.phase = phase) (elsewhere : phase ≠ .beaconTimer) :
      ¬ BeaconDue ⟨before, event, actions, after⟩ :=
    fun due => elsewhere (here.symm.trans due.2.1)
  dsimp only at advance ⊢
  cases advance with
  | called => exact .inl ⟨fun due => (by cases due.1.choose_spec), rfl, unannounced _⟩
  | selected phase => exact .inl ⟨undue phase nofun, rfl, rfl⟩
  | @announced o _ phase due sent => exact .inr ⟨⟨⟨o, rfl⟩, phase, due⟩, rfl, sent⟩
  | reported phase => exact .inl ⟨undue phase nofun, rfl, unannounced _⟩
  | heard phase => exact .inl ⟨undue phase nofun, rfl, unannounced _⟩
  | accepted phase => exact .inl ⟨undue phase nofun, rfl, unannounced _⟩
  | handled phase => exact .inl ⟨undue phase nofun, rfl, unannounced _⟩
  | passed next idle =>
    refine .inl ⟨fun due => ?_, rfl, rfl⟩
    rcases idle with ⟨_, _, early⟩ | ⟨phase, _⟩ | ⟨phase, _⟩ | ⟨phase, _⟩ | ⟨_, _, phase, _⟩
    · exact absurd due.2.2 (not_lt.mpr early)
    · exact undue phase nofun due
    · exact undue phase nofun due
    · exact undue phase nofun due
    · exact undue phase nofun due

/-- A timer that is due may act on nobody, and moves its mark all the same. -/
theorem timeOf_keeps {kind : EngineAction → Bool} {mark : Engine → Int} {period : Int}
    (positive : 0 ≤ period)
    (cases : ∀ t : Transition Engine EngineEvent EngineAction, t.Valid Engine.Step →
      (mark t.after = mark t.before ∧ t.actions.any kind = false) ∨
        (period < t.before.now - mark t.before ∧ mark t.after = t.before.now)) :
    Keeps Engine.Step mark (timeOf kind) period := by
  intro t valid
  rcases cases t valid with ⟨stays, silent⟩ | ⟨due, stored⟩
  · exact .inl ⟨if_neg (by simp [silent]), stays.ge⟩
  · by_cases seen : t.actions.any kind = true
    · exact .inr ⟨t.before.now, if_pos seen, due, stored⟩
    · exact .inl ⟨if_neg seen, by omega⟩

theorem report_keeps : Keeps Engine.Step Engine.lastHeartbeat (timeOf isReport) 500 := by
  apply timeOf_keeps (by decide)
  intro t valid
  rcases heartbeat_cases valid with ⟨_, stays, silent⟩ | ⟨due, stored, _⟩
  · exact .inl ⟨stays, silent⟩
  · exact .inr ⟨due.2.2, stored⟩

theorem beacon_keeps : Keeps Engine.Step Engine.lastBeacon (timeOf isBeacon) 3000 := by
  apply timeOf_keeps (by decide)
  intro t valid
  rcases beacon_cases valid with ⟨_, stays, silent⟩ | ⟨due, stored, _⟩
  · exact .inl ⟨stays, silent⟩
  · exact .inr ⟨due.2.2, stored⟩

/-- The reports and beacons of a step are those that its branch owes. A due heartbeat
sends one report to each open connection, and nothing else. -/
structure OnTime (t : Transition Engine EngineEvent EngineAction) : Prop where
  reported : t.actions.any isReport = true ↔ HeartbeatDue t ∧
    ∃ slot, slot.serviced = true ∧ 0 < (t.before.node.sock slot).val
  reports : HeartbeatDue t → ∃ (msg : Message) (fds : List Sock), msg.type = .statusReport ∧
    t.actions = fds.map (fun fd => .node (.sent fd msg)) ∧ fds.Nodup ∧
    ∀ fd, fd ∈ fds ↔ 0 < fd.val ∧ ∃ slot, slot.serviced = true ∧ t.before.node.sock slot = fd
  announced : t.actions.any isBeacon = true ↔ BeaconDue t ∧ 0 < t.before.udpFd.val
  beacon : BeaconDue t →
    t.actions = if 0 < t.before.udpFd.val then [.beaconSent t.before.ownBeacon] else []

section Step
variable {t : Transition Engine EngineEvent EngineAction}

theorem reports_of_due (valid : t.Valid Engine.Step) (distinct : Distinct t.before.node)
    (due : HeartbeatDue t) : ∃ (msg : Message) (fds : List Sock), msg.type = .statusReport ∧
      t.actions = fds.map (fun fd => .node (.sent fd msg)) ∧ fds.Nodup ∧
      ∀ fd, fd ∈ fds ↔ 0 < fd.val ∧ ∃ slot, slot.serviced = true ∧ t.before.node.sock slot = fd := by
  rcases heartbeat_cases valid with ⟨undue, _⟩ | ⟨_, _, cpu, queue, old, sent⟩
  · exact absurd due undue
  rw [heartbeat_eq, List.map_map] at sent
  refine ⟨_, _, rfl, sent, ?_, fun fd => ?_⟩
  · have unique := reported_nodup distinct fun _ => true
    simpa only [Reported, and_true] using unique
  · simp only [List.mem_filter, List.mem_map, decide_eq_true_eq]
    constructor
    · intro ⟨⟨slot, listed, held⟩, live⟩
      exact ⟨live, slot, serviced_of_mem listed, held⟩
    · intro ⟨live, slot, serviced, held⟩
      exact ⟨⟨slot, slot_mem_serviceOrder slot serviced, held⟩, live⟩

theorem reported_iff (valid : t.Valid Engine.Step) (distinct : Distinct t.before.node) :
    t.actions.any isReport = true ↔ HeartbeatDue t ∧
      ∃ slot, slot.serviced = true ∧ 0 < (t.before.node.sock slot).val := by
  constructor
  · intro seen
    have due : HeartbeatDue t := by
      rcases heartbeat_cases valid with ⟨_, _, silent⟩ | ⟨due, _⟩
      · rw [silent] at seen
        cases seen
      · exact due
    obtain ⟨msg, fds, _, sent, _, addressed⟩ := reports_of_due valid distinct due
    rw [sent, List.any_map, List.any_eq_true] at seen
    obtain ⟨fd, member, _⟩ := seen
    obtain ⟨live, slot, serviced, rfl⟩ := (addressed fd).mp member
    exact ⟨due, slot, serviced, live⟩
  · intro ⟨due, slot, serviced, live⟩
    obtain ⟨msg, fds, type, sent, _, addressed⟩ := reports_of_due valid distinct due
    rw [sent, List.any_map, List.any_eq_true]
    exact ⟨_, (addressed _).mpr ⟨live, slot, serviced, rfl⟩, by simp [isReport, type]⟩

theorem beacon_of_due (valid : t.Valid Engine.Step) (due : BeaconDue t) :
    t.actions = if 0 < t.before.udpFd.val then [.beaconSent t.before.ownBeacon] else [] := by
  rcases beacon_cases valid with ⟨undue, _⟩ | ⟨_, _, sent⟩
  · exact absurd due undue
  · exact sent

theorem announced_iff (valid : t.Valid Engine.Step) :
    t.actions.any isBeacon = true ↔ BeaconDue t ∧ 0 < t.before.udpFd.val := by
  constructor
  · intro seen
    rcases beacon_cases valid with ⟨_, _, silent⟩ | ⟨due, _, sent⟩
    · rw [silent] at seen
      cases seen
    · refine ⟨due, ?_⟩
      by_contra closed
      rw [sent, if_neg closed] at seen
      cases seen
  · intro ⟨due, live⟩
    rw [beacon_of_due valid due, if_pos live]
    rfl

theorem onTime_step (valid : t.Valid Engine.Step) (distinct : Distinct t.before.node) :
    OnTime t where
  reported := reported_iff valid distinct
  reports := reports_of_due valid distinct
  announced := announced_iff valid
  beacon := beacon_of_due valid

end Step

/-- In every run and whatever the clock does, reports are sent more than 500 ms apart and
beacons more than 3000 ms, and at no other time than when their branch owes them. -/
theorem timers_spaced (myNodeId : Int) (msgBuffer : Message) (serverFd udpFd : Sock)
    (lastHeartbeat lastBeacon now : Int) (readfds : Sock → Bool) (last : Engine)
    (steps : List (Transition Engine EngineEvent EngineAction))
    (run : Run Engine.Step (.boot myNodeId msgBuffer serverFd udpFd lastHeartbeat lastBeacon now
      readfds) steps last) :
    Spaced 500 (lastHeartbeat :: steps.filterMap (timeOf isReport)) ∧
    (steps.filterMap (timeOf isReport)).length * 501 ≤ last.lastHeartbeat - lastHeartbeat ∧
    Spaced 3000 (lastBeacon :: steps.filterMap (timeOf isBeacon)) ∧
    (steps.filterMap (timeOf isBeacon)).length * 3001 ≤ last.lastBeacon - lastBeacon ∧
    ∀ t ∈ steps, OnTime t :=
  ⟨(report_keeps.spaced run).1, report_keeps.length_le run, (beacon_keeps.spaced run).1,
    beacon_keeps.length_le run,
    fun t member => onTime_step (run.valid t member) ((distinct_engine run rfl).2 t member)⟩

/-- A beacon at 4000 ms, and a report to node 2 at 4600 ms. -/
theorem timers_spaced_waked : ∃ steps last, Run Engine.Step booted steps last ∧
    steps.filterMap (timeOf isBeacon) = [4000] ∧ steps.filterMap (timeOf isReport) = [4600] ∧
    Spaced 500 (0 :: steps.filterMap (timeOf isReport)) ∧
    Spaced 3000 (0 :: steps.filterMap (timeOf isBeacon)) ∧ ∀ t ∈ steps, OnTime t := by
  obtain ⟨first, met, _, announced, unreported⟩ := run_metTwo
  obtain ⟨_, second, last, round, _, _, _, _, unannounced, reported⟩ := run_waked
  have run := Run.append (met.snoc step_waked) round
  obtain ⟨reports, _, beacons, _, onTime⟩ := timers_spaced 1 .zeroed _ _ _ _ _ _ _ _ run
  refine ⟨_, last, run, ?_, ?_, reports, beacons, onTime⟩
  · rw [List.filterMap_append, List.filterMap_append, announced, unannounced]
    rfl
  · rw [List.filterMap_append, List.filterMap_append, unreported, reported]
    rfl

end VelumOS.Guarantees.EngineRounds
