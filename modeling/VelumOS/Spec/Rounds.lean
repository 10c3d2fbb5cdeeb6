import VelumOS.Source.EngineLoop
import VelumOS.Spec.Connections
import VelumOS.Base.Refinement

/-!
# What a round of the engine reads

The tables change while a round goes on: a beacon or an accept may open a connection
after `select` returned, and each read may close one. The descriptors that a round
reads are nevertheless fixed when `select` returns. They are those of the serviced
entries that it reported, and each is read when the loops reach its entry.
-/
namespace VelumOS.Spec
open VelumOS.Source Base.Runs Base.Refinement

/-- The entries in the order of the read loops. -/
def serviceOrder : List Slot :=
  ((List.finRange 16).tail.map Slot.peer) ++ (List.finRange 16).map Slot.inbound

/-- The entries that the loops still reach in this round. -/
def remaining : Phase → List Slot
  | .select => []
  | .sock slot _ => serviceOrder.dropWhile (· ≠ slot)
  | _ => serviceOrder

/-- The round has not reached its read loops. -/
def beforeReads : Phase → Bool
  | .beaconTimer | .heartbeatTimer | .discovery | .accept => true
  | _ => false

/-- The descriptor that the engine reads in its next phase. -/
def reading (e : Engine) : Option Sock :=
  match e.phase with
  | .sock slot _ =>
    if 0 < (e.node.sock slot).val ∧ e.readfds (e.node.sock slot) then some (e.node.sock slot)
    else none
  | _ => none

def readOf (t : Transition Engine EngineEvent EngineAction) : Option Sock :=
  match t.event with
  | .branch _ => reading t.before
  | .call _ => none

/-- The actions of the node among those of the engine. -/
def nodeActions (actions : List EngineAction) : List Action :=
  actions.filterMap fun
    | .node a => some a
    | .beaconSent _ => none

@[simp] theorem nodeActions_map (actions : List Action) :
    nodeActions (actions.map .node) = actions := by
  rw [nodeActions, List.filterMap_map]
  exact List.filterMap_some

/-- The descriptor that an action shows to be read: a message came from it, or it was closed
because its read failed. The accept branch closes a descriptor that nobody reads. -/
def readIn (phase : Phase) : Action → Option Sock
  | .received _ fd _ => some fd
  | .closed fd => if phase = .accept then none else some fd
  | _ => none

def readsIn (t : Transition Engine EngineEvent EngineAction) : List Sock :=
  (nodeActions t.actions).filterMap (readIn t.before.phase)

/-- The descriptors that the actions of a run show to be read, in their order. -/
def readsOf (steps : List (Transition Engine EngineEvent EngineAction)) : List Sock :=
  steps.flatMap readsIn

/-- A step that enters a new round. -/
def Selects (t : Transition Engine EngineEvent EngineAction) : Prop :=
  t.before.phase = .select ∧ ∃ o, t.event = .branch o

/-- An open descriptor that `select` left in the set. -/
def Reported (set : Sock → Bool) (fd : Sock) : Prop := 0 < fd.val ∧ set fd = true

instance (set : Sock → Bool) (fd : Sock) : Decidable (Reported set fd) := instDecidableAnd

theorem slot_mem_serviceOrder (slot : Slot) (serviced : slot.serviced = true) :
    slot ∈ serviceOrder := by
  cases slot with
  | peer i => revert i; decide
  | inbound i => revert i; decide

theorem serviced_of_mem {slot : Slot} (member : slot ∈ serviceOrder) : slot.serviced = true := by
  cases slot with
  | peer i => revert i; decide
  | inbound i => revert i; decide

theorem serviceOrder_nodup : serviceOrder.Nodup := by decide

/-- `handle_sock` takes the entries one by one. -/
theorem remaining_sock (slot : Slot) (serviced : slot.serviced = true) :
    remaining (.sock slot serviced) = slot :: remaining (.afterSock slot) := by
  cases slot with
  | peer i => revert i; decide
  | inbound i => revert i; decide

theorem remaining_of_early {phase : Phase} (early : beforeReads phase = true) :
    remaining phase = serviceOrder := by
  cases phase <;> simp_all [beforeReads, remaining]

theorem remaining_firstSock : remaining .firstSock = serviceOrder := by decide

theorem beforeReads_afterSock (slot : Slot) : beforeReads (.afterSock slot) = false := by
  cases slot <;> simp only [Phase.afterSock] <;> split <;> rfl

/-- The entries behind one that is handled are other entries. -/
theorem ne_of_mem_remaining {slot other : Slot} (serviced : slot.serviced = true)
    (member : other ∈ remaining (.afterSock slot)) : other ≠ slot := by
  have unique : (remaining (.sock slot serviced)).Nodup :=
    (List.dropWhile_suffix _).sublist.nodup serviceOrder_nodup
  rw [remaining_sock, List.nodup_cons] at unique
  intro same
  exact unique.1 (same ▸ member)

/-! ## What the phases do to the tables -/

/-- A call of the user's thread leaves the tables. -/
theorem sock_of_call {s after : Node} {api : ApiCall} {actions : List Action}
    (step : s.Step api.event actions after) (slot : Slot) : after.sock slot = s.sock slot := by
  have effect := step.effect
  cases api with
  | spawnWasm =>
    cases effect with
    | quiet => rfl
    | spawned => cases slot <;> rfl
  | distributed =>
    cases effect with
    | quiet => rfl
    | scattered tasks jobId => exact (scatter_sameTables s jobId _ tasks).sock slot

/-- A read changes the entry that it reads at most. -/
theorem sock_of_read {s after : Node} {slot other : Slot} {input : ReadResult}
    {ctx : ReadContext} {actions : List Action} (step : s.Step (.read slot input ctx) actions after)
    (elsewhere : other ≠ slot) : after.sock other = s.sock other := by
  have effect := step.effect
  cases effect with
  | quiet => rfl
  | closed => rw [closeConnection_sock, if_neg elsewhere]
  | received => cases other <;> rfl

/-- A beacon or an accept fills one free entry at most, with the new descriptor. -/
theorem sock_of_opening {s after : Node} {event : Event} {fd : Sock} {actions : List Action}
    (opening : (∃ len b, event = .beacon len b fd) ∨ event = .accept fd)
    (step : s.Step event actions after) : ∃ slot : Slot,
      ∀ other, after.sock other = s.sock other ∨
        (other = slot ∧ (s.sock other).val = 0 ∧ after.sock other = fd) := by
  have effect := step.effect
  cases effect with
  | quiet => exact ⟨.peer 0, fun _ => .inl rfl⟩
  | @connected _ _ opened i free =>
    have named : opened = fd := by simpa using opening
    refine ⟨.peer i, fun other => ?_⟩
    rw [sock_storePeer]
    split
    · next here => exact .inr ⟨here, here ▸ free, named⟩
    · exact .inl rfl
  | @admitted ns i free =>
    have named : ns = fd := by simpa using opening
    refine ⟨.inbound i, fun other => ?_⟩
    rw [sock_storeInbound]
    split
    · next here => exact .inr ⟨here, here ▸ free, named⟩
    · exact .inl rfl
  | failedAccept i free =>
    have named : .failed = fd := by simpa using opening
    refine ⟨.inbound i, fun other => ?_⟩
    rw [sock_storeInbound]
    split
    · next here => exact .inr ⟨here, here ▸ free, named⟩
    · exact .inl rfl
  | refused => exact ⟨.peer 0, fun _ => .inl rfl⟩
  | closed => simp at opening
  | received => simp at opening
  | spawned => simp at opening
  | scattered => simp at opening

/-! ## What the phases read -/

theorem readIn_sends {phase : Phase} {actions : List Action} (sends : OnlySends actions) :
    actions.filterMap (readIn phase) = [] := by
  rw [List.filterMap_eq_nil_iff]
  intro a member
  obtain ⟨fd, msg, rfl⟩ := sends a member
  rfl

/-- A call of the user's thread reads nothing. -/
theorem readIn_call {s after : Node} {api : ApiCall} {actions : List Action} (phase : Phase)
    (step : s.Step api.event actions after) : actions.filterMap (readIn phase) = [] := by
  have effect := step.effect
  cases api with
  | spawnWasm =>
    cases effect with
    | quiet sends => exact readIn_sends sends
    | spawned => rfl
  | distributed =>
    cases effect with
    | quiet sends => exact readIn_sends sends
    | scattered tasks =>
      rw [List.filterMap_eq_nil_iff]
      intro a member
      rcases List.mem_cons.mp member with rfl | sent
      · rfl
      · obtain ⟨task, _, rfl⟩ := List.mem_map.mp sent
        rfl

/-- Nor does the accept branch. -/
theorem readIn_accept {s after : Node} {ns : Sock} {actions : List Action}
    (step : s.Step (.accept ns) actions after) : actions.filterMap (readIn .accept) = [] := by
  have effect := step.effect
  cases effect with
  | quiet sends => exact readIn_sends sends
  | admitted => rfl
  | failedAccept => rfl
  | refused => rfl

/-- A read of an open serviced entry reads its descriptor once. -/
theorem readIn_read {s after : Node} {slot : Slot} {input : ReadResult} {ctx : ReadContext}
    {actions : List Action} {phase : Phase} (reads : phase ≠ .accept)
    (serviced : slot.serviced = true) (live : 0 < (s.sock slot).val)
    (step : s.Step (.read slot input ctx) actions after) :
    actions.filterMap (readIn phase) = [s.sock slot] := by
  have effect := step.effect
  cases effect with
  | quiet _ idle => exact absurd ⟨serviced, live⟩ (idle slot input ctx rfl)
  | closed =>
    have shown : readIn phase (.closed (s.sock slot)) = some (s.sock slot) := if_neg reads
    rw [closeConnection_actions, List.filterMap_cons_some shown]
    split <;> rfl
  | @received _ _ _ _ _ later _ _ _ sends =>
    show s.sock slot :: later.filterMap (readIn phase) = [s.sock slot]
    rw [readIn_sends sends]

/-- What a step shows to be read is what its phase reads. -/
theorem readsIn_eq {t : Transition Engine EngineEvent EngineAction} (valid : t.Valid Engine.Step) :
    readsIn t = (readOf t).toList := by
  obtain ⟨before, event, actions, after⟩ := t
  have advance := Engine.Step.advance valid
  dsimp only at advance
  cases advance with
  | called step =>
    rw [readsIn, nodeActions_map]
    exact readIn_call _ step
  | selected phase => simp [readsIn, nodeActions, readOf, reading, phase]
  | announced phase _ sent =>
    simp only [readsIn, readOf, reading, phase, sent, Option.toList_none]
    split <;> rfl
  | reported phase =>
    simp only [readsIn, nodeActions_map, readOf, reading, phase, Option.toList_none]
    exact readIn_sends (heartbeat_onlySends _ _ _ _)
  | heard phase step =>
    simp only [readsIn, nodeActions_map, readOf, reading, phase, Option.toList_none]
    have effect := step.effect
    cases effect with
    | quiet sends => exact readIn_sends sends
    | connected => rfl
  | accepted phase step =>
    simp only [readsIn, nodeActions_map, readOf, reading, phase, Option.toList_none]
    exact readIn_accept step
  | @handled _ _ _ slot serviced phase live readable step =>
    simp only [readsIn, nodeActions_map, readOf, reading, phase, live, readable, and_self, if_true,
      Option.toList_some]
    exact readIn_read (by simp) serviced live step
  | passed next idle =>
    simp only [readsIn, nodeActions, List.filterMap_nil, readOf, reading]
    rcases idle with ⟨phase, _⟩ | ⟨phase, _⟩ | ⟨phase, _⟩ | ⟨phase, _⟩ | ⟨slot, serviced, phase, _, idle⟩
    · rw [phase]
      rfl
    · rw [phase]
      rfl
    · rw [phase]
      rfl
    · rw [phase]
      rfl
    · rw [phase]
      simp only [if_neg idle, Option.toList_none]

/-! ## The invariant of a round -/

/-- `table` is what the entries held when `select` returned `set`, and `reads` what was
read since. -/
structure InRound (table : Slot → Sock) (set : Sock → Bool) (reads : List Sock) (e : Engine) :
    Prop where
  readfds : e.readfds = set
  watched : ∀ fd, set fd = true → fd = e.serverFd ∨ (0 < e.udpFd.val ∧ fd = e.udpFd) ∨
    ∃ slot, 0 < (table slot).val ∧ table slot = fd
  account : reads ++ ((remaining e.phase).map table).filter (Reported set) =
    (serviceOrder.map table).filter (Reported set)
  ahead : ∀ slot ∈ remaining e.phase,
    Reported set (e.node.sock slot) ∨ Reported set (table slot) → e.node.sock slot = table slot
  early : beforeReads e.phase = true → ∀ slot, 0 < (table slot).val → e.node.sock slot = table slot

section Step
variable {table : Slot → Sock} {set : Sock → Bool} {reads : List Sock} {e : Engine}

/-- A phase before the read loops that leaves the entries. -/
theorem InRound.quiet (round : InRound table set reads e) {after : Engine}
    (early : beforeReads e.phase = true)
    (next : beforeReads after.phase = true ∨ after.phase = .firstSock)
    (same : ∀ slot, after.node.sock slot = e.node.sock slot) (readfds : after.readfds = e.readfds)
    (server : after.serverFd = e.serverFd) (udp : after.udpFd = e.udpFd) :
    InRound table set reads after := by
  have all : remaining after.phase = remaining e.phase := by
    rw [remaining_of_early early]
    rcases next with still | first
    · exact remaining_of_early still
    · rw [first, remaining_firstSock]
  refine ⟨readfds.trans round.readfds, ?_, ?_, ?_, ?_⟩
  · rw [server, udp]
    exact round.watched
  · rw [all]
    exact round.account
  · rw [all]
    intro slot member
    rw [same slot]
    exact round.ahead slot member
  · intro _ slot live
    rw [same slot]
    exact round.early early slot live

/-- A connection opened since `select` is not in its set. -/
theorem InRound.unreported (round : InRound table set reads e)
    (early : beforeReads e.phase = true) {fd : Sock} (fresh : e.Fresh fd) :
    ¬ Reported set fd := by
  intro reported
  obtain ⟨live, member⟩ := reported
  rcases round.watched fd member with server | ⟨positive, udp⟩ | ⟨slot, open_, held⟩
  · exact fresh.2.1 server
  · exact fresh.2.2 positive udp
  · have there := round.early early slot open_
    rcases fresh.1 with rfl | ⟨_, new⟩
    · exact absurd live (by decide)
    · exact new slot (there.trans held)

/-- A phase that may open a connection. -/
theorem InRound.opening (round : InRound table set reads e) {s : Node} {next : Phase}
    {event : Event} {fd : Sock} {actions : List Action} (early : beforeReads e.phase = true)
    (next_eq : beforeReads next = true ∨ next = .firstSock)
    (opening : (∃ len b, event = .beacon len b fd) ∨ event = .accept fd)
    (step : e.node.Step event actions s) (fresh : e.Fresh fd) :
    InRound table set reads { e with node := s, phase := next } := by
  have all : remaining next = serviceOrder := by
    rcases next_eq with still | rfl
    · exact remaining_of_early still
    · exact remaining_firstSock
  obtain ⟨changed, tables⟩ := sock_of_opening opening step
  have account := round.account
  have ahead := round.ahead
  rw [remaining_of_early early] at account ahead
  refine ⟨round.readfds, round.watched, ?_, ?_, ?_⟩
  · simpa only [all] using account
  · intro slot member reported
    simp only [all] at member
    dsimp only at reported ⊢
    rcases tables slot with same | ⟨_, free, stored⟩
    · rw [same] at reported ⊢
      exact ahead slot member reported
    · rcases reported with new | old
      · rw [stored] at new
        exact absurd new (round.unreported early fresh)
      · have there := round.early early slot old.1
        rw [there] at free
        exact absurd free old.1.ne'
  · intro _ slot live
    dsimp only
    rcases tables slot with same | ⟨_, free, _⟩
    · rw [same]
      exact round.early early slot live
    · rw [round.early early slot live] at free
      exact absurd free live.ne'

/-- The read of an entry that was reported. -/
theorem InRound.handled (round : InRound table set reads e) {s : Node} {slot : Slot}
    {serviced : slot.serviced = true} {input : ReadResult} {ctx : ReadContext}
    {actions : List Action} (phase : e.phase = .sock slot serviced)
    (live : 0 < (e.node.sock slot).val) (readable : e.readfds (e.node.sock slot) = true)
    (step : e.node.Step (.read slot input ctx) actions s) :
    InRound table set (reads ++ [e.node.sock slot])
      { e with node := s, phase := .afterSock slot } := by
  have account := round.account
  have ahead := round.ahead
  rw [phase, remaining_sock] at account ahead
  have reported : Reported set (e.node.sock slot) := ⟨live, round.readfds ▸ readable⟩
  have there := ahead slot List.mem_cons_self (.inl reported)
  refine ⟨round.readfds, round.watched, ?_, ?_, ?_⟩
  · rw [← account, List.append_assoc, List.map_cons, List.filter_cons_of_pos]
    · rw [there, List.singleton_append]
    · rw [← there]
      exact decide_eq_true reported
  · intro other member old
    dsimp only at member old ⊢
    have unchanged := sock_of_read step (ne_of_mem_remaining serviced member)
    rw [unchanged] at old ⊢
    exact ahead other (List.mem_cons_of_mem slot member) old
  · intro early
    rw [beforeReads_afterSock] at early
    cases early

/-- The entry was not reported, so `handle_sock` does nothing. -/
theorem InRound.skipped (round : InRound table set reads e) {slot : Slot}
    {serviced : slot.serviced = true} (phase : e.phase = .sock slot serviced)
    (idle : ¬ (0 < (e.node.sock slot).val ∧ e.readfds (e.node.sock slot) = true)) :
    InRound table set reads { e with phase := .afterSock slot } := by
  have account := round.account
  have ahead := round.ahead
  rw [phase, remaining_sock] at account ahead
  have unreported : ¬ Reported set (table slot) := by
    intro reported
    have there := ahead slot List.mem_cons_self (.inr reported)
    rw [← there] at reported
    exact idle ⟨reported.1, round.readfds ▸ reported.2⟩
  refine ⟨round.readfds, round.watched, ?_, ?_, ?_⟩
  · rw [← account, List.map_cons, List.filter_cons_of_neg]
    simpa using unreported
  · intro other member
    exact ahead other (List.mem_cons_of_mem slot member)
  · intro early
    rw [beforeReads_afterSock] at early
    cases early

/-- A call of the user's thread. -/
theorem InRound.called (round : InRound table set reads e) {s : Node}
    (same : ∀ slot, s.sock slot = e.node.sock slot) :
    InRound table set reads { e with node := s } := by
  refine ⟨round.readfds, round.watched, round.account, ?_, ?_⟩
  · intro slot member
    dsimp only
    rw [same slot]
    exact round.ahead slot member
  · intro early slot live
    dsimp only
    rw [same slot]
    exact round.early early slot live

/-- Each step that does not begin a new round keeps the invariant. -/
theorem InRound.step (round : InRound table set reads e) {after : Engine} {event : EngineEvent}
    {actions : List EngineAction} (step : e.Step event actions after)
    (within : ¬ Selects ⟨e, event, actions, after⟩) :
    InRound table set (reads ++ (readOf ⟨e, event, actions, after⟩).toList) after := by
  have unread (early : beforeReads e.phase = true) : reading e = none := by
    unfold reading
    split
    · next phase =>
      rw [phase] at early
      cases early
    · rfl
  have advance := step.advance
  cases advance with
  | called inner =>
    rw [readOf, Option.toList_none, List.append_nil]
    exact round.called (sock_of_call inner)
  | selected phase => exact absurd ⟨phase, _, rfl⟩ within
  | announced phase =>
    have early : beforeReads e.phase = true := by rw [phase]; rfl
    simp only [readOf, unread early, Option.toList_none, List.append_nil]
    exact round.quiet early (.inl rfl) (fun _ => rfl) rfl rfl rfl
  | reported phase =>
    have early : beforeReads e.phase = true := by rw [phase]; rfl
    simp only [readOf, unread early, Option.toList_none, List.append_nil]
    exact round.quiet early (.inl rfl) (fun _ => rfl) rfl rfl rfl
  | heard phase inner fresh =>
    have early : beforeReads e.phase = true := by rw [phase]; rfl
    simp only [readOf, unread early, Option.toList_none, List.append_nil]
    exact round.opening early (.inl rfl) (.inl ⟨_, _, rfl⟩) inner fresh
  | accepted phase inner fresh =>
    have early : beforeReads e.phase = true := by rw [phase]; rfl
    simp only [readOf, unread early, Option.toList_none, List.append_nil]
    exact round.opening early (.inr rfl) (.inr rfl) inner fresh
  | handled phase live readable inner =>
    simp only [readOf, reading, phase, live, readable, and_self, if_true, Option.toList_some]
    exact round.handled phase live readable inner
  | passed next idle =>
    have stays (early : beforeReads e.phase = true)
        (reached : beforeReads next = true ∨ next = .firstSock) :
        InRound table set (reads ++ (reading e).toList) { e with phase := next } := by
      rw [unread early, Option.toList_none, List.append_nil]
      exact round.quiet early reached (fun _ => rfl) rfl rfl rfl
    simp only [readOf]
    rcases idle with ⟨phase, rfl, _⟩ | ⟨phase, rfl, _⟩ | ⟨phase, rfl, _⟩ | ⟨phase, rfl, _⟩ |
      ⟨slot, serviced, phase, rfl, idle⟩
    · exact stays (by rw [phase]; rfl) (.inl rfl)
    · exact stays (by rw [phase]; rfl) (.inl rfl)
    · exact stays (by rw [phase]; rfl) (.inl rfl)
    · exact stays (by rw [phase]; rfl) (.inr rfl)
    · simp only [reading, phase, if_neg idle, Option.toList_none, List.append_nil]
      exact round.skipped phase idle

/-- The invariant over a run within one round. -/
theorem InRound.run (round : InRound table set reads e) {last : Engine}
    {steps : List (Transition Engine EngineEvent EngineAction)}
    (run : Run Engine.Step e steps last) (within : ∀ t ∈ steps, ¬ Selects t) :
    InRound table set (reads ++ readsOf steps) last := by
  induction run with
  | nil => simpa [readsOf] using round
  | @snoc mid last steps event actions earlier step ih =>
    have before := ih fun t member => within t (List.mem_append_left _ member)
    have after := before.step step (within _ List.mem_concat_self)
    rw [readsOf, List.flatMap_append, List.flatMap_singleton, ← List.append_assoc,
      readsIn_eq (t := ⟨mid, event, actions, last⟩) step]
    exact after

end Step

/-- What `select` watches is a socket of the engine or in an entry. -/
theorem watched_cases {e : Engine} {fd : Sock} (member : e.watched fd = true) :
    fd = e.serverFd ∨ (0 < e.udpFd.val ∧ fd = e.udpFd) ∨
      ∃ slot, 0 < (e.node.sock slot).val ∧ e.node.sock slot = fd := by
  simp only [Engine.watched, Bool.or_eq_true, decide_eq_true_eq, Bool.and_eq_true,
    List.any_eq_true, List.mem_finRange, true_and] at member
  rcases member with ((server | udp) | ⟨i, ⟨_, live⟩, held⟩) | ⟨i, live, held⟩
  · exact .inl server
  · exact .inr (.inl udp)
  · exact .inr (.inr ⟨.peer i, live, held.symm⟩)
  · exact .inr (.inr ⟨.inbound i, live, held.symm⟩)

theorem selected_subset {e : Engine} {ready : Option (Sock → Bool)} {fd : Sock}
    (member : e.selected ready fd = true) : e.watched fd = true := by
  cases ready with
  | none => exact member
  | some ready =>
    simp only [Engine.selected, Bool.and_eq_true] at member
    exact member.1

/-- `select` begins a round. -/
theorem inRound_select (e : Engine) (o : Outside) :
    InRound e.node.sock (e.selected o.ready) []
      { e with readfds := e.selected o.ready, now := o.now, phase := .beaconTimer } where
  readfds := rfl
  watched _ member := watched_cases (selected_subset member)
  account := rfl
  ahead _ _ _ := rfl
  early _ _ _ := rfl

theorem afterSock_cases (slot : Slot) : Phase.afterSock slot = .select ∨
    ∃ next serviced, Phase.afterSock slot = .sock next serviced := by
  cases slot with
  | peer i =>
    by_cases more : i.val + 1 < 16
    · exact .inr ⟨_, _, dif_pos more⟩
    · exact .inr ⟨_, _, dif_neg more⟩
  | inbound i =>
    by_cases more : i.val + 1 < 16
    · exact .inr ⟨_, _, dif_pos more⟩
    · exact .inl (dif_neg more)

/-- The read loops pass over entries that `select` did not report, up to the next round. -/
theorem run_idle {o : Outside} {e : Engine} {slot : Slot} {serviced : slot.serviced = true}
    (admissible : e.Admissible (.branch o)) (phase : e.phase = .sock slot serviced)
    (idle : ∀ other ∈ remaining e.phase, ¬ Reported e.readfds (e.node.sock other)) :
    ∃ steps, Run Engine.Step e steps { e with phase := .select } ∧
      ∀ t ∈ steps, t.actions = [] ∧ ¬ Selects t := by
  generalize listed : remaining e.phase = entries at idle
  induction entries generalizing e slot with
  | nil =>
    rw [phase, remaining_sock] at listed
    cases listed
  | cons first rest ih =>
    rw [phase, remaining_sock] at listed
    obtain ⟨rfl, behind⟩ := List.cons.inj listed
    have unreported := idle slot List.mem_cons_self
    have pass := (Advance.passed (o := o) _
      (.inr (.inr (.inr (.inr ⟨slot, serviced, phase, rfl, unreported⟩))))).step admissible
    have silent : ¬ Selects ⟨e, .branch o, [], { e with phase := .afterSock slot }⟩ :=
      fun begins => by cases phase.symm.trans begins.1
    rcases afterSock_cases slot with final | ⟨next, served, again⟩
    · rw [final] at pass silent
      exact ⟨_, .single pass, List.forall_mem_singleton.mpr ⟨rfl, silent⟩⟩
    · obtain ⟨steps, run, others⟩ := ih (e := { e with phase := .afterSock slot }) admissible again
        behind fun other member => idle other (List.mem_cons_of_mem slot member)
      exact ⟨_, Run.append (.single pass) run, List.forall_mem_cons.mpr ⟨⟨rfl, silent⟩, others⟩⟩

/-! ## The engine as the node sees it -/

/-- A phase of the engine is a step of the node, or the node does not see it. -/
theorem engine_refines : Refines Engine.Step Node.Step Engine.node nodeActions (fun _ => True) := by
  intro before event actions after _ step
  have advance := step.advance
  cases advance with
  | called inner =>
    rw [nodeActions_map]
    exact .inr ⟨_, inner⟩
  | selected => exact .inl ⟨rfl, rfl⟩
  | announced _ _ sent =>
    refine .inl ⟨rfl, ?_⟩
    rw [sent]
    split <;> rfl
  | @reported o =>
    rw [nodeActions_map]
    exact .inr ⟨.heartbeat o.cpu o.queue o.old, trivial, rfl⟩
  | heard _ inner =>
    rw [nodeActions_map]
    exact .inr ⟨_, inner⟩
  | accepted _ inner =>
    rw [nodeActions_map]
    exact .inr ⟨_, inner⟩
  | handled _ _ _ inner =>
    rw [nodeActions_map]
    exact .inr ⟨_, inner⟩
  | passed => exact .inl ⟨rfl, rfl⟩

/-- A run of the engine is a run of the node with the same actions. -/
theorem node_run {start last : Engine}
    {steps : List (Transition Engine EngineEvent EngineAction)}
    (run : Run Engine.Step start steps last) :
    ∃ seen, Run Node.Step start.node seen last.node ∧
      actionsOf seen = nodeActions (actionsOf steps) :=
  engine_refines.lift (fun _ _ => List.filterMap_append) rfl (fun _ _ _ => trivial) run trivial

/-- Open descriptors are distinct wherever the engine is in its loop. -/
theorem distinct_engine {myNodeId : Int} {msgBuffer : Message} {start last : Engine}
    {steps : List (Transition Engine EngineEvent EngineAction)}
    (run : Run Engine.Step start steps last) (fresh : start.node = .boot myNodeId msgBuffer) :
    Distinct last.node ∧ ∀ t ∈ steps, Distinct t.before.node := by
  have keeps (t : Transition Engine EngineEvent EngineAction) (valid : t.Valid Engine.Step)
      (distinct : Distinct t.before.node) : Distinct t.after.node := by
    rcases engine_refines trivial valid with ⟨same, _⟩ | ⟨event, step⟩
    · rwa [same]
    · exact distinct_step step.effect distinct
  have initial : Distinct start.node := by
    rw [fresh]
    exact distinct_boot myNodeId msgBuffer
  obtain ⟨final, all⟩ := run.invariant (fun e => Distinct e.node) keeps initial
  exact ⟨final, fun t member => (all t member).1⟩

end VelumOS.Spec
