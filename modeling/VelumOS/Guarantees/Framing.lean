import VelumOS.Spec.Connections
import VelumOS.Base.RecordStream

/-!
# Framing of the message stream

`handle_sock` asks `read` for `sizeof(Message)` octets, stores whatever it returns
over the front of the one `msg_buffer` and dispatches the buffer. TCP may return
less. The messages dispatched from a connection are then records taken from a
stream piece by piece, in the sense of `Base.RecordStream`, and they are the
messages sent exactly when every read returned a whole one. The beacon branch, by
contrast, compares the length it received with `sizeof(Beacon)`.
-/
namespace VelumOS.Guarantees.Framing
open VelumOS.Source VelumOS.Spec Base.Octets Base.Runs Base.RecordStream

def pieceRead (slot : Slot) : Event → Option (List UInt8)
  | .read other (.data piece _ _) _ => if other = slot then some piece else none
  | _ => none

/-- The pieces that the reads on a connection returned, in order. -/
def piecesRead (slot : Slot) (steps : List (Transition Node Event Action)) : List (List UInt8) :=
  steps.filterMap fun t => pieceRead slot t.event

def messageReceived (slot : Slot) : Action → Option Message
  | .received other _ msg => if other = slot then some msg else none
  | _ => none

/-- The messages dispatched from a connection, in order. -/
def messagesReceived (slot : Slot) (steps : List (Transition Node Event Action)) : List Message :=
  steps.flatMap fun t => t.actions.filterMap (messageReceived slot)

theorem messageReceived_sends (slot : Slot) (actions : List Action) (sends : OnlySends actions) :
    actions.filterMap (messageReceived slot) = [] := by
  rw [List.filterMap_eq_nil_iff]
  intro a member
  obtain ⟨fd, msg, rfl⟩ := sends a member
  rfl

/-- A step either reads one piece from the connection and dispatches the buffer
with it, or does neither. -/
theorem dispatch_of_effect {s after : Node} {event : Event} {actions : List Action} (slot : Slot)
    (effect : Effect s event actions after) (serviced : slot.serviced = true)
    (live : 0 < (s.sock slot).val) :
    (pieceRead slot event = none ∧ actions.filterMap (messageReceived slot) = []) ∨
    ∃ piece, ∃ fits : piece.length ≤ 4099, pieceRead slot event = some piece ∧
      actions.filterMap (messageReceived slot) = [s.messageRead piece fits] := by
  cases effect with
  | quiet sends idle =>
    refine .inl ⟨?_, messageReceived_sends slot _ sends⟩
    unfold pieceRead
    split
    · next other piece nonempty fits ctx =>
      rw [if_neg]
      intro same
      subst same
      exact idle _ _ _ rfl ⟨serviced, live⟩
    · rfl
  | connected => exact .inl ⟨rfl, rfl⟩
  | admitted => exact .inl ⟨rfl, rfl⟩
  | failedAccept => exact .inl ⟨rfl, rfl⟩
  | refused => exact .inl ⟨rfl, rfl⟩
  | closed =>
    refine .inl ⟨rfl, ?_⟩
    rw [closeConnection_actions]
    split <;> rfl
  | @received other piece _ fits ctx sends status _ _ onlySends =>
    have quiet := messageReceived_sends slot sends onlySends
    by_cases same : other = slot
    · exact .inr ⟨piece, fits, by simp [pieceRead, same], by simp [messageReceived, same, quiet]⟩
    · exact .inl ⟨by simp [pieceRead, same], by simp [messageReceived, same, quiet]⟩
  | spawned => exact .inl ⟨rfl, rfl⟩
  | scattered tasks =>
    refine .inl ⟨rfl, ?_⟩
    rw [List.filterMap_eq_nil_iff]
    intro a member
    rcases List.mem_cons.mp member with rfl | sent
    · rfl
    · obtain ⟨task, _, rfl⟩ := List.mem_map.mp sent
      rfl

/-- Along a run that does not break the connection, one record is taken per piece
read from it, and the messages dispatched are the views of these records. -/
theorem taken_of_run {start last : Node} {steps : List (Transition Node Event Action)}
    (run : Run Node.Step start steps last) (slot : Slot) (serviced : slot.serviced = true)
    (live : 0 < (start.sock slot).val)
    (unbroken : ∀ t ∈ steps, ∀ ctx, t.event ≠ .read slot .failed ctx) :
    last.sock slot = start.sock slot ∧ ∃ records : List (Block UInt8 4099),
      Taken (piecesRead slot steps) records ∧
      messagesReceived slot steps = records.map Message.view := by
  induction run with
  | nil => exact ⟨rfl, [], .nil, rfl⟩
  | @snoc mid last steps event actions earlier step ih =>
    obtain ⟨same, records, taken, dispatched⟩ := ih
      (fun t member => unbroken t (List.mem_append_left _ member))
    have effect := step.effect
    have kept := unbroken ⟨mid, event, actions, last⟩ (by simp)
    have open_ : 0 < (mid.sock slot).val := same ▸ live
    refine ⟨(sock_of_open effect open_ kept).trans same, ?_⟩
    simp only [piecesRead, messagesReceived, List.filterMap_append, List.flatMap_append] at *
    rcases dispatch_of_effect slot effect serviced open_ with ⟨idle, none⟩ | ⟨piece, fits, read, one⟩
    · refine ⟨records, ?_, ?_⟩
      · simpa [idle] using taken
      · simpa [none] using dispatched
    · refine ⟨records ++ [mid.msgBuffer.octets.overlay piece fits], ?_, ?_⟩
      · simpa [read] using taken.snoc piece mid.msgBuffer.octets fits
      · simpa [one, Node.messageRead] using dispatched

theorem piecesRead_fit (slot : Slot) (steps : List (Transition Node Event Action)) :
    ∀ piece ∈ piecesRead slot steps, piece.length ≤ 4099 := by
  intro piece member
  obtain ⟨t, _, read⟩ := List.mem_filterMap.mp member
  unfold pieceRead at read
  split at read
  · next _ _ _ fits _ _ =>
    split at read
    · cases read
      exact fits
    · cases read
  · cases read

/-- In a run that does not break the connection and reads from it the stream of
the messages sent, exactly these messages are dispatched from it if and only if
every read on it returned a whole message. -/
theorem framing_exact_iff {start last : Node} {steps : List (Transition Node Event Action)}
    (run : Run Node.Step start steps last) (slot : Slot) (serviced : slot.serviced = true)
    (live : 0 < (start.sock slot).val)
    (unbroken : ∀ t ∈ steps, ∀ ctx, t.event ≠ .read slot .failed ctx) (sent : List Message)
    (delivered : (piecesRead slot steps).flatten = stream (sent.map Message.octets)) :
    messagesReceived slot steps = sent ↔ ∀ piece ∈ piecesRead slot steps, piece.length = 4099 := by
  obtain ⟨_, records, taken, dispatched⟩ := taken_of_run run slot serviced live unbroken
  rw [dispatched, ← taken_eq_iff (by decide) taken (piecesRead_fit slot steps) delivered]
  constructor
  · rintro rfl
    simp [Function.comp_def]
  · rintro rfl
    simp [Function.comp_def]

/-- An outgoing connection to node 1. -/
def onePeer : Node := (Node.boot 0 .zeroed).setSock (.peer 1) fd5

/-- A result from node 7. -/
def fromSeven : Message := ⟨7, .taskResult, .fill 4096 0⟩

/-- A heartbeat from node 8. -/
def fromEight : Message := ⟨8, .heartbeat, .fill 4096 255⟩

/-- Three whole messages, each over the one before it. -/
theorem framing_exact_whole_message : ∃ last steps, Run Node.Step onePeer steps last ∧
    messagesReceived (.peer 1) steps = [fromSeven, fromEight, .zeroed] := by
  have alive : 0 < (onePeer.sock (.peer 1)).val := by decide
  have first := step_receive onePeer (.peer 1) .refusing fromSeven rfl alive (.inr rfl)
  have second := step_receive (onePeer.afterRead fd5 fromSeven) (.peer 1) .refusing fromEight rfl
    alive (.inl rfl)
  have third := step_receive ((onePeer.afterRead fd5 fromSeven).afterRead fd5 fromEight) (.peer 1)
    .refusing .zeroed rfl alive (.inl rfl)
  have run := ((Run.single first).snoc second).snoc third
  refine ⟨_, _, run, (framing_exact_iff run (.peer 1) rfl alive (by simp)
    [fromSeven, fromEight, .zeroed] ?_).mpr ?_⟩
  · simp [piecesRead, pieceRead, stream]
  · simp [piecesRead, pieceRead, fromSeven.octets.size, fromEight.octets.size,
      Message.zeroed.octets.size]

/-- When the first octet of a message arrives alone, it is dispatched with the old
buffer behind it. -/
theorem framing_split_message : ¬ ∀ (start last : Node)
    (steps : List (Transition Node Event Action)) (_ : Run Node.Step start steps last) (slot : Slot)
    (_ : slot.serviced = true) (_ : 0 < (start.sock slot).val)
    (_ : ∀ t ∈ steps, ∀ ctx, t.event ≠ .read slot .failed ctx) (sent : List Message)
    (_ : (piecesRead slot steps).flatten = stream (sent.map Message.octets)),
    messagesReceived slot steps = sent := by
  intro always
  have whole := fromSeven.octets.size
  have short : (fromSeven.octets.cells.take 1).length = 1 := by simp [whole]
  have long : (fromSeven.octets.cells.drop 1).length = 4098 := by simp [whole]
  have alive : 0 < (onePeer.sock (.peer 1)).val := by decide
  have first := step_read onePeer (.peer 1) .refusing (fromSeven.octets.cells.take 1)
    (by omega) (by omega) rfl alive (.inl rfl)
  have second := step_read
    (onePeer.afterRead (onePeer.sock (.peer 1))
      (onePeer.messageRead (fromSeven.octets.cells.take 1) (by omega))) (.peer 1) .refusing
    (fromSeven.octets.cells.drop 1) (by omega) (by omega) rfl alive (.inl rfl)
  have run := (Run.single first).snoc second
  have same := always _ _ _ run (.peer 1) rfl (by decide) (by simp) [fromSeven] (by
    simpa [piecesRead, pieceRead, stream] using List.take_append_drop 1 fromSeven.octets.cells)
  have lengths := congrArg List.length same
  simp [messagesReceived, messageReceived] at lengths

end VelumOS.Guarantees.Framing
