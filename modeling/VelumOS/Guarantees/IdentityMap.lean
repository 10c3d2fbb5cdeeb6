import VelumOS.Spec.Connections

/-!
# Connection identity map

`socket_to_id` should say who is at the other end of a connection. The history
`hear` keeps, for each descriptor, the ids heard on the connection it names now:
the id it was opened for and the senders of the messages read, latest first. The
code closes a connection with `sock = 0; socket_to_id[sock] = -1`, so it clears the
entry of descriptor 0 and keeps the one of the closed descriptor; the next
connection with that number starts with the id of the node that left.
-/
namespace VelumOS.Guarantees.IdentityMap
open VelumOS.Source VelumOS.Spec Base.Runs

/-- Ids heard on the present connection of each descriptor. -/
abbrev Heard := Sock → List Int

def hear (heard : Heard) : Action → Heard
  | .accepted fd => Function.update heard fd []
  | .connected nodeId fd => Function.update heard fd [(nodeId : Int)]
  | .received _ fd msg => Function.update heard fd ((msg.senderId.toNat : Int) :: heard fd)
  | .closed fd => Function.update heard fd []
  | _ => heard

/-- `socket_to_id` is -1 for what is not an open connection and for a connection
on which nothing was heard, and the last id heard for every other. -/
structure IdsExact (s : Node) (heard : Heard) : Prop where
  closed : ∀ fd, 0 ≤ fd.val → ¬ s.Open fd → s.socketToId fd = -1
  live : ∀ fd, s.Open fd → s.socketToId fd = (heard fd).headD (-1)

/-- Tasks go to connections on which their worker was heard. -/
def SentWhereHeard (t : Transition (Node × Heard) Event Action) : Prop :=
  ∀ call task, .dispatched call task ∈ t.actions → (task.worker : Int) ∈ t.before.2 task.fd

/-- The step closes a connection that is mapped to a node. -/
def ClosesMapped (s : Node) (event : Event) : Prop :=
  ∃ slot ctx, event = .read slot .failed ctx ∧ slot.serviced = true ∧
    0 < (s.sock slot).val ∧ s.socketToId (s.sock slot) ≠ -1

/-- On every outgoing connection the node it was opened for was heard. -/
def PeersHeard (s : Node) (heard : Heard) : Prop :=
  ∀ i, 0 < (s.peerSockets i).val → (i.val : Int) ∈ heard (s.peerSockets i)

theorem hear_sends (heard : Heard) (actions : List Action) (sends : OnlySends actions) :
    actions.foldl hear heard = heard :=
  foldl_sends hear (fun _ _ _ => rfl) actions sends heard

theorem hear_dispatched (heard : Heard) (tasks : List Dispatch) :
    (tasks.map (Action.dispatched .distributed)).foldl hear heard = heard :=
  foldl_dispatched hear (fun _ _ _ => rfl) .distributed tasks heard

theorem hear_closeConnection (s : Node) (slot : Slot) (heard : Heard) :
    (s.closeConnection slot).2.foldl hear heard = Function.update heard (s.sock slot) [] := by
  rw [closeConnection_actions]
  split <;> rfl

/-- The ids carry over to a state with the same connections, ids and history. -/
theorem IdsExact.congr {s after : Node} {heard : Heard} (exact_ : IdsExact s heard)
    (sameOpen : ∀ fd, after.Open fd ↔ s.Open fd) (sameIds : after.socketToId = s.socketToId) :
    IdsExact after heard where
  closed fd valid shut := by
    rw [sameIds]
    exact exact_.closed fd valid (mt (sameOpen fd).mpr shut)
  live fd alive := by
    rw [sameIds]
    exact exact_.live fd ((sameOpen fd).mp alive)

/-- A new connection that starts with its own ids. -/
theorem IdsExact.opened {s after : Node} {heard : Heard} {fd : Sock} {ids : List Int}
    (exact_ : IdsExact s heard) (sameOpen : ∀ x, after.Open x ↔ x = fd ∨ s.Open x)
    (own : after.socketToId fd = ids.headD (-1))
    (others : ∀ x, x ≠ fd → after.socketToId x = s.socketToId x) :
    IdsExact after (Function.update heard fd ids) where
  closed x valid shut := by
    have different : x ≠ fd := fun same => shut ((sameOpen x).mpr (.inl same))
    rw [others x different]
    exact exact_.closed x valid fun alive => shut ((sameOpen x).mpr (.inr alive))
  live x alive := by
    by_cases same : x = fd
    · rw [same, own, Function.update_self]
    · rw [others x same, Function.update_of_ne same]
      exact exact_.live x (((sameOpen x).mp alive).resolve_left same)

/-- After a close the map is exact only if the connection was not mapped. -/
theorem idsExact_closed_iff {s : Node} {heard : Heard} (slot : Slot) (distinct : Distinct s)
    (live : 0 < (s.sock slot).val) (exact_ : IdsExact s heard) :
    IdsExact (s.closeConnection slot).1 (Function.update heard (s.sock slot) []) ↔
      s.socketToId (s.sock slot) = -1 := by
  have zero := ne_free_of_live live
  have sameOpen := open_of_closed slot distinct
  have ids := closeConnection_socketToId s slot
  constructor
  · intro after
    have shut : ¬ (s.closeConnection slot).1.Open (s.sock slot) := by
      rw [sameOpen]
      exact fun both => both.2 rfl
    have cleared := after.closed (s.sock slot) (by omega) shut
    rwa [ids, Function.update_of_ne zero] at cleared
  · intro unmapped
    constructor
    · intro x valid shut
      rw [ids]
      by_cases index : x = .free
      · rw [index, Function.update_self]
      · rw [Function.update_of_ne index]
        by_cases same : x = s.sock slot
        · rw [same, unmapped]
        · exact exact_.closed x valid fun alive => shut ((sameOpen x).mpr ⟨alive, same⟩)
    · intro x alive
      obtain ⟨before, different⟩ := (sameOpen x).mp alive
      have index := ne_free_of_live before.1
      rw [ids, Function.update_of_ne index, Function.update_of_ne different]
      exact exact_.live x before

/-- One step keeps the map exact unless it closes a mapped connection. -/
theorem idsExact_step {s after : Node} {heard : Heard} {event : Event} {actions : List Action}
    (effect : Effect s event actions after) (distinct : Distinct s) (exact_ : IdsExact s heard) :
    IdsExact after (actions.foldl hear heard) ↔ ¬ ClosesMapped s event := by
  have calm (other : ∀ slot ctx, event ≠ .read slot .failed ctx) : ¬ ClosesMapped s event := by
    intro closes
    obtain ⟨slot, ctx, same, _⟩ := closes
    exact other slot ctx same
  cases effect with
  | quiet sends idle =>
    rw [hear_sends heard _ sends]
    apply iff_of_true exact_
    intro closes
    obtain ⟨slot, ctx, same, serviced, live, _⟩ := closes
    exact idle slot _ ctx same ⟨serviced, live⟩
  | @connected _ _ fd i free live fresh =>
    refine iff_of_true ?_ (calm (by simp))
    apply exact_.opened (open_of_opened (sock_storePeer s i fd _) free live)
    · exact Function.update_self ..
    · exact fun x different => Function.update_of_ne different ..
  | @admitted ns i free live fresh =>
    refine iff_of_true ?_ (calm (by simp))
    apply exact_.opened (open_of_opened (sock_storeInbound s i ns) free live)
    · exact exact_.closed ns (by omega) fun alive => alive.2.elim fresh
    · exact fun x _ => rfl
  | failedAccept i free =>
    refine iff_of_true ?_ (calm (by simp))
    exact exact_.congr (open_of_failed (sock_storeInbound s i .failed) free (by decide)) rfl
  | @refused ns fresh =>
    refine iff_of_true ⟨exact_.closed, fun x alive => ?_⟩ (calm (by simp))
    have different := ne_of_fresh fresh alive
    show s.socketToId x = (Function.update heard ns [] x).headD (-1)
    rw [Function.update_of_ne different]
    exact exact_.live x alive
  | @closed slot ctx live serviced =>
    rw [hear_closeConnection, idsExact_closed_iff slot distinct live exact_]
    constructor
    · intro unmapped closes
      obtain ⟨other, _, same, _, _, mapped⟩ := closes
      cases same
      exact mapped unmapped
    · intro calm
      by_contra mapped
      exact calm ⟨slot, ctx, rfl, serviced, live, mapped⟩
  | @received slot piece _ fits ctx sends status live serviced onlySends =>
    refine iff_of_true ?_ (calm (by simp))
    rw [List.foldl_cons, hear_sends _ _ onlySends]
    refine exact_.opened (fun x => ?_) ?_ ?_
    · rw [open_congr (s := s) (fun other => by cases other <;> rfl) x]
      exact ⟨.inr, fun either => either.elim (fun same => same ▸ ⟨live, slot, rfl⟩) id⟩
    · exact Function.update_self ..
    · exact fun x different => Function.update_of_ne different ..
  | spawned =>
    refine iff_of_true (exact_.congr (open_congr fun other => ?_) rfl) (calm (by simp))
    cases other <;> rfl
  | @scattered _ _ _ start stop tasks jobId =>
    refine iff_of_true ?_ (calm (by simp))
    rw [List.foldl_cons, hear_dispatched]
    have same := scatter_sameTables s jobId (stop - start) tasks
    exact exact_.congr (open_congr same.sock) same.socketToId

/-- A new connection elsewhere leaves the outgoing ones with what was heard on them. -/
theorem PeersHeard.elsewhere {s : Node} {heard : Heard} {fd : Sock} (peers : PeersHeard s heard)
    (ids : List Int) (new : ∀ i, 0 < (s.peerSockets i).val → s.peerSockets i ≠ fd) :
    PeersHeard s (Function.update heard fd ids) := by
  intro i alive
  rw [Function.update_of_ne (new i alive)]
  exact peers i alive

/-- The nodes of the outgoing table stay heard on their connections. -/
theorem peersHeard_step {s after : Node} {heard : Heard} {event : Event} {actions : List Action}
    (effect : Effect s event actions after) (distinct : Distinct s) (peers : PeersHeard s heard) :
    PeersHeard after (actions.foldl hear heard) := by
  cases effect with
  | quiet sends => rwa [hear_sends heard _ sends]
  | @connected _ _ fd j free live fresh =>
    intro i alive
    by_cases same : i = j
    · simp [hear, same]
    · simp only [Function.update_of_ne same] at alive ⊢
      have old : s.peerSockets i ≠ fd := fresh (.peer i)
      rw [List.foldl_cons, List.foldl_nil, hear, Function.update_of_ne old]
      exact peers i alive
  | admitted _ _ _ fresh => exact peers.elsewhere [] fun i _ => fresh (.peer i)
  | failedAccept => exact peers
  | refused fresh =>
    exact peers.elsewhere [] fun i alive => ne_of_fresh fresh ⟨alive, .peer i, rfl⟩
  | @closed slot ctx live serviced =>
    intro i alive
    obtain ⟨kept, old⟩ := peer_of_closed slot distinct alive
    rw [kept] at alive ⊢
    rw [hear_closeConnection, Function.update_of_ne old]
    exact peers i alive
  | @received slot piece _ fits ctx sends status live serviced onlySends =>
    intro i alive
    rw [List.foldl_cons, hear_sends _ _ onlySends, hear]
    have before : (i.val : Int) ∈ heard (s.peerSockets i) := peers i alive
    show (i.val : Int) ∈ Function.update heard (s.sock slot) _ (s.peerSockets i)
    by_cases same : s.peerSockets i = s.sock slot
    · rw [same, Function.update_self, ← same]
      exact List.mem_cons_of_mem _ before
    · rwa [Function.update_of_ne same]
  | spawned => exact peers
  | @scattered _ _ _ start stop tasks jobId =>
    have same := scatter_sameTables s jobId (stop - start) tasks
    rw [List.foldl_cons, hear_dispatched]
    intro i alive
    rw [same.peerSockets] at alive ⊢
    exact peers i alive

/-- With an exact map a task goes to a connection on which its worker was heard. -/
theorem sentWhereHeard_of_exact {t : Transition (Node × Heard) Event Action}
    (effect : Effect t.before.1 t.event t.actions t.after.1)
    (peers : PeersHeard t.before.1 t.before.2) (exact_ : IdsExact t.before.1 t.before.2) :
    SentWhereHeard t := by
  intro call task member
  obtain ⟨slot, leads, same⟩ := t.before.1.findTarget_leads task.worker task.fd
    (target_of_dispatched effect call task member)
  rw [← same]
  cases slot with
  | peer i =>
    obtain ⟨live, opened⟩ := leads
    rw [← (opened : i.val = task.worker)]
    exact peers i live
  | inbound i =>
    obtain ⟨live, mapped⟩ := leads
    have last := exact_.live (t.before.1.inboundSockets i) ⟨live, .inbound i, rfl⟩
    rw [mapped] at last
    show (task.worker : Int) ∈ t.before.2 (t.before.1.inboundSockets i)
    cases heard : t.before.2 (t.before.1.inboundSockets i) with
    | nil =>
      rw [heard, List.headD_nil] at last
      omega
    | cons id rest =>
      rw [heard, List.headD_cons] at last
      rw [last]
      exact List.mem_cons_self

/-- In a run from start-up, `socket_to_id` is exact in every state reached and every
task goes where its worker was heard, if and only if no step of the run closes a
connection that is mapped to a node. -/
theorem identity_map_exact_iff (myNodeId : Int) (msgBuffer : Message) {last : Node × Heard}
    {steps : List (Transition (Node × Heard) Event Action)}
    (run : Run (withHistory Node.Step hear) (.boot myNodeId msgBuffer, fun _ => []) steps last) :
    (∀ t ∈ steps, IdsExact t.after.1 t.after.2 ∧ SentWhereHeard t) ↔
      ∀ t ∈ steps, ¬ ClosesMapped t.before.1 t.event := by
  have boot : IdsExact (.boot myNodeId msgBuffer) fun _ => [] :=
    ⟨fun _ _ _ => rfl, fun _ _ => rfl⟩
  have initial : Distinct (.boot myNodeId msgBuffer) ∧
      PeersHeard (.boot myNodeId msgBuffer) fun _ => [] :=
    ⟨distinct_boot myNodeId msgBuffer, fun _ live => absurd live (lt_irrefl 0)⟩
  have keeps (t : Transition (Node × Heard) Event Action)
      (valid : t.Valid (withHistory Node.Step hear))
      (inv : Distinct t.before.1 ∧ PeersHeard t.before.1 t.before.2) :
      Distinct t.after.1 ∧ PeersHeard t.after.1 t.after.2 := by
    rw [valid.history]
    exact ⟨distinct_step valid.forget.effect inv.1, peersHeard_step valid.forget.effect inv.1 inv.2⟩
  have exact_ (t : Transition (Node × Heard) Event Action)
      (valid : t.Valid (withHistory Node.Step hear))
      (inv : Distinct t.before.1 ∧ PeersHeard t.before.1 t.before.2)
      (before : IdsExact t.before.1 t.before.2) :
      IdsExact t.after.1 t.after.2 ↔ ¬ ClosesMapped t.before.1 t.event := by
    rw [valid.history]
    exact idsExact_step valid.forget.effect inv.1 before
  have states := run.holds_iff (fun p => Distinct p.1 ∧ PeersHeard p.1 p.2)
    (fun p => IdsExact p.1 p.2) (fun t => ¬ ClosesMapped t.before.1 t.event) keeps exact_ initial boot
  constructor
  · intro always
    exact states.mp fun t member => (always t member).1
  · intro calm t member
    have held := run.guarded_invariant
      (fun p => (Distinct p.1 ∧ PeersHeard p.1 p.2) ∧ IdsExact p.1 p.2)
      (fun t => ¬ ClosesMapped t.before.1 t.event)
      (fun t valid inv met => ⟨keeps t valid inv.1, (exact_ t valid inv.1 inv.2).mpr met⟩)
      ⟨initial, boot⟩ calm
    obtain ⟨⟨⟨_, peers⟩, before⟩, _, after⟩ := held.2 t member
    exact ⟨after, sentWhereHeard_of_exact (run.valid t member).1.effect peers before⟩

/-- Node 3 is discovered and connected. -/
theorem identity_map_exact_connect : ∃ last steps,
    Run (withHistory Node.Step hear) (.boot 1 .zeroed, fun _ => []) steps last ∧ steps ≠ [] ∧
      ∀ t ∈ steps, IdsExact t.after.1 t.after.2 ∧ SentWhereHeard t := by
  have connect := observed
    (step_connect_boot 1 .zeroed 3 8003 fd5 (by decide) (by decide)) hear fun _ => []
  have run := Run.single connect
  refine ⟨_, _, run, by simp, (identity_map_exact_iff 1 .zeroed run).mpr fun t member => ?_⟩
  rw [List.mem_singleton.mp member]
  intro closes
  obtain ⟨_, _, other, _⟩ := closes
  cases other

/-- Node 3 is connected and leaves: `socket_to_id[5]` stays 3. -/
theorem identity_map_after_close : ¬ ∀ (myNodeId : Int) (msgBuffer : Message) (last : Node × Heard)
    (steps : List (Transition (Node × Heard) Event Action))
    (_ : Run (withHistory Node.Step hear) (.boot myNodeId msgBuffer, fun _ => []) steps last),
    ∀ t ∈ steps, IdsExact t.after.1 t.after.2 ∧ SentWhereHeard t := by
  intro always
  have connect := observed
    (step_connect_boot 1 .zeroed 3 8003 fd5 (by decide) (by decide)) hear fun _ => []
  have close := observed
    (step_close (afterConnect (.boot 1 .zeroed) 3 fd5) (.peer 3) .refusing rfl
      (by decide)) hear
  have exact_ := always 1 .zeroed _ _ ((Run.single connect).snoc (close _))
  have opened := (exact_ _ (List.mem_append_left _ (List.mem_singleton.mpr rfl))).1
  have closed := (exact_ _ List.mem_concat_self).1
  have distinct := distinct_step connect.1.effect (distinct_boot 1 .zeroed)
  rw [hear_closeConnection, idsExact_closed_iff (.peer 3) distinct (by decide) opened] at closed
  exact absurd closed (by decide)

end VelumOS.Guarantees.IdentityMap
