import VelumOS.Spec.Connections

/-!
# Inbound slots

An entry of `inbound_sockets` is free when it is 0 and in use when it is positive. The
accept branch stores whatever `accept` returned, so a failed accept leaves a -1 that is
neither, and nothing ever takes it out again. The history `track` keeps the descriptors
that are open, by the side that opened the connection.
-/
namespace VelumOS.Guarantees.InboundSlots
open VelumOS.Source VelumOS.Spec Base.Runs

inductive Side where
  | outgoing | inbound
  deriving DecidableEq

def Slot.side : Slot → Side
  | .peer _ => .outgoing
  | .inbound _ => .inbound

/-- The descriptors the node has got and not yet closed. -/
abbrev Descriptors := Side → Finset Sock

def track (fds : Descriptors) : Action → Descriptors
  | .accepted fd => Function.update fds .inbound (insert fd (fds .inbound))
  | .connected _ fd => Function.update fds .outgoing (insert fd (fds .outgoing))
  | .closed fd => fun side => (fds side).erase fd
  | _ => fds

/-- No slot is lost: what is not free is an open descriptor in one entry only, and an
accept is admitted as long as fewer than `MAX_PEERS` inbound connections are open. -/
structure SlotsKept (s : Node) (fds : Descriptors) : Prop where
  inboundOpen : ∀ i, (s.inboundSockets i).val ≠ 0 →
    ∃ side, s.inboundSockets i ∈ fds side
  distinct : ∀ first second, (s.sock first).val ≠ 0 → s.sock first = s.sock second →
    first = second
  admits : (fds .inbound).card < 16 → ∀ ns, 0 < ns.val →
    .accepted ns ∈ (s.acceptConnection ns).2

/-- The step is a failed accept while an inbound entry is free. -/
def LosesSlot (s : Node) (event : Event) : Prop :=
  event = .accept .failed ∧ ∃ i, (s.inboundSockets i).val = 0

/-- An open descriptor in the table of one side. -/
def Holds (s : Node) (side : Side) (fd : Sock) : Prop :=
  0 < fd.val ∧ ∃ slot, Slot.side slot = side ∧ s.sock slot = fd

/-- The history has the descriptors of the two tables. -/
def Tracked (s : Node) (fds : Descriptors) : Prop := ∀ side fd, fd ∈ fds side ↔ Holds s side fd

theorem track_sends (fds : Descriptors) (actions : List Action) (sends : OnlySends actions) :
    actions.foldl track fds = fds :=
  foldl_sends track (fun _ _ _ => rfl) actions sends fds

theorem track_dispatched (fds : Descriptors) (tasks : List Dispatch) :
    (tasks.map (Action.dispatched .distributed)).foldl track fds = fds :=
  foldl_dispatched track (fun _ _ _ => rfl) .distributed tasks fds

theorem track_closeConnection (s : Node) (slot : Slot) (fds : Descriptors) :
    (s.closeConnection slot).2.foldl track fds = fun side => (fds side).erase (s.sock slot) := by
  rw [closeConnection_actions]
  split <;> rfl

theorem Tracked.congr {s after : Node} {fds : Descriptors} (tracked : Tracked s fds)
    (same : ∀ slot, after.sock slot = s.sock slot) : Tracked after fds := by
  intro side fd
  rw [tracked side fd]
  simp only [Holds, same]

section Store
variable {s after : Node} {slot : Slot} {fd : Sock} {fds : Descriptors}

/-- A store into an entry that was not open. -/
theorem holds_stored
    (tables : ∀ other, after.sock other = if other = slot then fd else s.sock other)
    (vacant : (s.sock slot).val = 0) (side : Side) (x : Sock) :
    Holds after side x ↔ (Slot.side slot = side ∧ x = fd ∧ 0 < x.val) ∨ Holds s side x := by
  constructor
  · intro held
    obtain ⟨live, other, mine, rfl⟩ := held
    rw [tables] at live ⊢
    split at live
    · next here =>
      rw [if_pos here]
      exact .inl ⟨here ▸ mine, rfl, live⟩
    · next elsewhere =>
      rw [if_neg elsewhere]
      exact .inr ⟨live, other, mine, rfl⟩
  · intro either
    rcases either with ⟨mine, rfl, live⟩ | ⟨live, other, mine, rfl⟩
    · exact ⟨live, slot, mine, by rw [tables, if_pos rfl]⟩
    · have elsewhere : other ≠ slot := by
        intro here
        rw [here] at live
        omega
      exact ⟨live, other, mine, by rw [tables, if_neg elsewhere]⟩

theorem Tracked.opened (tracked : Tracked s fds)
    (tables : ∀ other, after.sock other = if other = slot then fd else s.sock other)
    (vacant : (s.sock slot).val = 0) (live : 0 < fd.val) :
    Tracked after (Function.update fds (Slot.side slot) (insert fd (fds (Slot.side slot)))) := by
  intro side x
  rw [holds_stored tables vacant]
  by_cases mine : Slot.side slot = side
  · rw [← mine, Function.update_self, Finset.mem_insert, tracked]
    constructor
    · intro either
      exact either.imp_left fun same => ⟨rfl, same, same ▸ live⟩
    · intro either
      exact either.imp_left fun new => new.2.1
  · rw [Function.update_of_ne (Ne.symm mine), tracked]
    constructor
    · exact .inr
    · intro either
      exact either.resolve_left fun new => mine new.1

theorem Tracked.failed (tracked : Tracked s fds)
    (tables : ∀ other, after.sock other = if other = slot then fd else s.sock other)
    (vacant : (s.sock slot).val = 0) (dead : fd.val ≤ 0) : Tracked after fds := by
  intro side x
  rw [holds_stored tables vacant, tracked]
  constructor
  · exact .inr
  · intro either
    apply either.resolve_left
    intro new
    rw [new.2.1] at new
    omega

end Store

/-- A close takes its descriptor out. -/
theorem Tracked.closed {s : Node} {fds : Descriptors} (slot : Slot) (distinct : Distinct s)
    (tracked : Tracked s fds) :
    Tracked (s.closeConnection slot).1 fun side => (fds side).erase (s.sock slot) := by
  intro side x
  have tables := closeConnection_sock s slot
  rw [Finset.mem_erase, tracked]
  constructor
  · intro both
    obtain ⟨different, live, other, mine, rfl⟩ := both
    have elsewhere : other ≠ slot := fun here => different (here ▸ rfl)
    exact ⟨live, other, mine, by rw [tables, if_neg elsewhere]⟩
  · intro held
    obtain ⟨live, other, mine, rfl⟩ := held
    rw [tables] at live ⊢
    split at live
    · exact absurd live (by decide)
    · next elsewhere =>
      rw [if_neg elsewhere]
      exact ⟨fun same => elsewhere (distinct other slot live same), live, other, mine, rfl⟩

/-- A refused descriptor was not open. -/
theorem Tracked.refused {s : Node} {fds : Descriptors} {ns : Sock} (fresh : s.Fresh ns)
    (tracked : Tracked s fds) : Tracked s fun side => (fds side).erase ns := by
  intro side x
  rw [Finset.mem_erase, tracked]
  constructor
  · exact And.right
  · intro held
    have alive : s.Open x := ⟨held.1, held.2.choose, held.2.choose_spec.2⟩
    exact ⟨ne_of_fresh fresh alive, held⟩

theorem tracked_boot (myNodeId : Int) (msgBuffer : Message) :
    Tracked (.boot myNodeId msgBuffer) fun _ => ∅ := by
  intro side fd
  apply iff_of_false (Finset.notMem_empty fd)
  intro held
  obtain ⟨live, slot, _, rfl⟩ := held
  exact ne_free_of_live live (sock_boot myNodeId msgBuffer slot)

/-- Every step keeps the history on the tables. -/
theorem tracked_step {s after : Node} {event : Event} {actions : List Action} {fds : Descriptors}
    (effect : Effect s event actions after) (distinct : Distinct s) (tracked : Tracked s fds) :
    Tracked after (actions.foldl track fds) := by
  cases effect with
  | quiet sends =>
    rw [track_sends fds actions sends]
    exact tracked
  | @connected _ _ fd i free live _ => exact tracked.opened (sock_storePeer s i fd _) free live
  | @admitted ns i free live _ => exact tracked.opened (sock_storeInbound s i ns) free live
  | failedAccept i free => exact tracked.failed (sock_storeInbound s i .failed) free (by decide)
  | refused fresh => exact tracked.refused fresh
  | @closed slot =>
    rw [track_closeConnection]
    exact tracked.closed slot distinct
  | received _ _ _ sends =>
    rw [List.foldl_cons, track_sends _ _ sends]
    exact tracked.congr fun other => by cases other <;> rfl
  | spawned => exact tracked.congr fun other => by cases other <;> rfl
  | scattered tasks jobId =>
    rw [List.foldl_cons, track_dispatched]
    exact tracked.congr (scatter_sameTables s jobId _ tasks).sock

/-! ## Which slots are lost -/

/-- No entry holds the -1 of a failed call. -/
def NoneFailed (s : Node) : Prop := ∀ slot, s.sock slot ≠ .failed

/-- A descriptor is -1, 0 or positive. -/
theorem live_of_ne {fd : Sock} (nonzero : fd.val ≠ 0) (valid : fd ≠ .failed) : 0 < fd.val := by
  have low := fd.2.1
  have notFailed : fd.val ≠ -1 := fun same => valid (Subtype.ext same)
  omega

/-- The accept branch stores the descriptor if an entry is free. -/
theorem acceptConnection_free (s : Node) (ns : Sock) (free : ∃ i, (s.inboundSockets i).val = 0) :
    ∃ i, (s.inboundSockets i).val = 0 ∧ s.acceptConnection ns =
      ({ s with inboundSockets := Function.update s.inboundSockets i ns },
        if 0 < ns.val then [.accepted ns] else []) := by
  obtain ⟨k, zero⟩ := free
  have some_ : ((List.finRange 16).find? fun i => (s.inboundSockets i).val = 0).isSome :=
    List.find?_isSome.mpr ⟨k, List.mem_finRange k, by simpa using zero⟩
  obtain ⟨i, found⟩ := Option.isSome_iff_exists.mp some_
  refine ⟨i, by simpa using List.find?_some found, ?_⟩
  simp only [Node.acceptConnection, found]

/-- With fewer than 16 inbound connections and no -1, an entry is free. -/
theorem exists_free {s : Node} {fds : Descriptors} (distinct : Distinct s)
    (tracked : Tracked s fds) (noneFailed : NoneFailed s) (few : (fds .inbound).card < 16) :
    ∃ i, (s.inboundSockets i).val = 0 := by
  by_contra full
  have live (i : Fin 16) : 0 < (s.inboundSockets i).val :=
    live_of_ne (fun zero => full ⟨i, zero⟩) (noneFailed (.inbound i))
  have injective : Function.Injective s.inboundSockets := by
    intro i k same
    exact Slot.inbound.inj (distinct (.inbound i) (.inbound k) (live i) same)
  have all : Finset.univ.image s.inboundSockets ⊆ fds .inbound := by
    intro fd member
    obtain ⟨i, _, rfl⟩ := Finset.mem_image.mp member
    exact (tracked .inbound _).mpr ⟨live i, .inbound i, rfl, rfl⟩
  have count := Finset.card_le_card all
  rw [Finset.card_image_of_injective _ injective, Finset.card_univ, Fintype.card_fin] at count
  omega

/-- What the history needs, kept by every step. -/
structure Consistent (s : Node) (fds : Descriptors) : Prop where
  distinct : Distinct s
  tracked : Tracked s fds
  peers : ∀ i, s.peerSockets i ≠ .failed

/-- The slots are kept exactly as long as no entry holds a -1. -/
theorem slotsKept_iff {s : Node} {fds : Descriptors} (inv : Consistent s fds) :
    SlotsKept s fds ↔ NoneFailed s := by
  obtain ⟨distinct, tracked, peers⟩ := inv
  constructor
  · intro kept slot failed
    cases slot with
    | peer i => exact peers i failed
    | inbound i =>
      rw [Node.sock_inbound] at failed
      obtain ⟨side, member⟩ := kept.inboundOpen i (by rw [failed]; decide)
      obtain ⟨live, _⟩ := (tracked side _).mp member
      rw [failed] at live
      exact absurd live (by decide)
  · intro noneFailed
    refine ⟨?_, ?_, ?_⟩
    · intro i used
      exact ⟨.inbound, (tracked .inbound _).mpr
        ⟨live_of_ne used (noneFailed (.inbound i)), .inbound i, rfl, rfl⟩⟩
    · intro first second used same
      exact distinct first second (live_of_ne used (noneFailed first)) same
    · intro few ns live
      obtain ⟨i, _, stored⟩ := acceptConnection_free s ns
        (exists_free distinct tracked noneFailed few)
      rw [stored, if_pos live]
      exact List.mem_singleton_self _

theorem ne_failed_of_live {fd : Sock} (live : 0 < fd.val) : fd ≠ .failed := by
  intro same
  rw [same] at live
  exact absurd live (by decide)

/-- The outgoing table never gets a -1. -/
theorem peers_step {s after : Node} {event : Event} {actions : List Action}
    (effect : Effect s event actions after) (peers : ∀ i, s.peerSockets i ≠ .failed) :
    ∀ i, after.peerSockets i ≠ .failed := by
  intro j
  cases effect with
  | @connected _ _ fd i _ live =>
    show Function.update s.peerSockets i fd j ≠ .failed
    rw [Function.update_apply]
    split
    · exact ne_failed_of_live live
    · exact peers j
  | @closed slot =>
    have stored := closeConnection_sock s slot (.peer j)
    rw [Node.sock_peer] at stored
    rw [stored]
    split
    · decide
    · exact peers j
  | scattered tasks jobId =>
    rw [(scatter_sameTables s jobId _ tasks).peerSockets]
    exact peers j
  | _ => exact peers j

section Store
variable {s after : Node} {slot : Slot} {fd : Sock}

theorem NoneFailed.stored
    (tables : ∀ other, after.sock other = if other = slot then fd else s.sock other)
    (noneFailed : NoneFailed s) (valid : fd ≠ .failed) : NoneFailed after := by
  intro other
  rw [tables]
  split
  · exact valid
  · exact noneFailed other

theorem NoneFailed.congr (same : ∀ slot, after.sock slot = s.sock slot)
    (noneFailed : NoneFailed s) : NoneFailed after := by
  intro slot
  rw [same]
  exact noneFailed slot

end Store

/-- A step puts a -1 into an entry exactly if it loses a slot. -/
theorem noneFailed_step_iff {s after : Node} {event : Event} {actions : List Action}
    (step : s.Step event actions after) (noneFailed : NoneFailed s) :
    NoneFailed after ↔ ¬ LosesSlot s event := by
  constructor
  · intro kept loses
    obtain ⟨rfl, free⟩ := loses
    obtain ⟨i, _, stored⟩ := acceptConnection_free s .failed free
    have accepted : s.acceptConnection .failed = (after, actions) := Except.ok.inj step.2
    obtain ⟨rfl, _⟩ := Prod.mk.inj (stored.symm.trans accepted)
    exact kept (.inbound i) (Function.update_self _ _ _)
  · intro safe
    cases step.effect with
    | quiet => exact noneFailed
    | @connected _ _ fd i _ live =>
      exact noneFailed.stored (sock_storePeer s i fd _) (ne_failed_of_live live)
    | @admitted ns i _ live => exact noneFailed.stored (sock_storeInbound s i ns) (ne_failed_of_live live)
    | failedAccept i free => exact absurd ⟨rfl, i, free⟩ safe
    | refused => exact noneFailed
    | @closed slot => exact noneFailed.stored (closeConnection_sock s slot) (by decide)
    | received => exact noneFailed.congr fun slot => by cases slot <;> rfl
    | spawned => exact noneFailed.congr fun slot => by cases slot <;> rfl
    | scattered tasks jobId => exact noneFailed.congr (scatter_sameTables s jobId _ tasks).sock

theorem noneFailed_boot (myNodeId : Int) (msgBuffer : Message) :
    NoneFailed (.boot myNodeId msgBuffer) := by
  intro slot
  rw [sock_boot]
  decide

theorem consistent_boot (myNodeId : Int) (msgBuffer : Message) :
    Consistent (.boot myNodeId msgBuffer) fun _ => ∅ :=
  ⟨distinct_boot myNodeId msgBuffer, tracked_boot myNodeId msgBuffer,
    fun i => noneFailed_boot myNodeId msgBuffer (.peer i)⟩

theorem consistent_step {s after : Node} {event : Event} {actions : List Action}
    {fds : Descriptors} (effect : Effect s event actions after) (inv : Consistent s fds) :
    Consistent after (actions.foldl track fds) :=
  ⟨distinct_step effect inv.distinct, tracked_step effect inv.distinct inv.tracked,
    peers_step effect inv.peers⟩

/-- In a run from start-up, the slots are kept in every state reached if and only if no
accept of the run fails while an inbound entry is free. -/
theorem inbound_slots_kept_iff (myNodeId : Int) (msgBuffer : Message) {last : Node × Descriptors}
    {steps : List (Transition (Node × Descriptors) Event Action)}
    (run : Run (withHistory Node.Step track) (.boot myNodeId msgBuffer, fun _ => ∅) steps last) :
    (∀ t ∈ steps, SlotsKept t.after.1 t.after.2) ↔
      ∀ t ∈ steps, ¬ LosesSlot t.before.1 t.event := by
  have boot := consistent_boot myNodeId msgBuffer
  have keeps (t : Transition (Node × Descriptors) Event Action)
      (valid : t.Valid (withHistory Node.Step track))
      (inv : Consistent t.before.1 t.before.2) : Consistent t.after.1 t.after.2 := by
    rw [valid.history]
    exact consistent_step valid.forget.effect inv
  refine run.holds_iff (fun p => Consistent p.1 p.2) (fun p => SlotsKept p.1 p.2)
    (fun t => ¬ LosesSlot t.before.1 t.event) keeps ?_ boot
    ((slotsKept_iff boot).mpr (noneFailed_boot myNodeId msgBuffer))
  intro t valid inv kept
  rw [slotsKept_iff (keeps t valid inv)]
  exact noneFailed_step_iff valid.forget ((slotsKept_iff inv).mp kept)

/-- One inbound connection is accepted. -/
theorem inbound_slots_kept_accept : ∃ last steps,
    Run (withHistory Node.Step track) (.boot 1 .zeroed, fun _ => ∅) steps last ∧ steps ≠ [] ∧
      ∀ t ∈ steps, SlotsKept t.after.1 t.after.2 := by
  have accept := observed (step_accept (.boot 1 .zeroed) fd5 rfl (by decide) (by
    intro slot same
    rw [sock_boot] at same
    exact absurd same (by decide))) track fun _ => ∅
  have run := Run.single accept
  refine ⟨_, _, run, by simp, (inbound_slots_kept_iff 1 .zeroed run).mpr fun t member => ?_⟩
  rw [List.mem_singleton.mp member]
  intro loses
  exact absurd (Event.accept.inj loses.1) (by decide)

/-- The first accept fails: entry 0 holds a descriptor that is not open. -/
theorem inbound_slot_lost : ¬ ∀ (myNodeId : Int) (msgBuffer : Message) (last : Node × Descriptors)
    (steps : List (Transition (Node × Descriptors) Event Action))
    (_ : Run (withHistory Node.Step track) (.boot myNodeId msgBuffer, fun _ => ∅) steps last),
    ∀ t ∈ steps, SlotsKept t.after.1 t.after.2 := by
  intro always
  have failed : (Node.boot 1 .zeroed).Step (.accept .failed) _ _ := ⟨.inl rfl, rfl⟩
  have run := Run.single (observed failed track fun _ => ∅)
  have kept := always 1 .zeroed _ _ run _ (List.mem_singleton.mpr rfl)
  have inv := consistent_step failed.effect (consistent_boot 1 .zeroed)
  exact (noneFailed_step_iff failed (noneFailed_boot 1 .zeroed)).mp ((slotsKept_iff inv).mp kept)
    ⟨rfl, 0, rfl⟩

end VelumOS.Guarantees.InboundSlots
