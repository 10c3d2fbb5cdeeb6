import VelumOS.Spec.Connections

/-!
# Workers and their targets

`find_all_workers` and the search for a target are written apart: two scans with a
deduplication, and a lookup with a precedence of its own. Both are about the same
connections: `Node.Leads` says where an entry of the tables leads.
-/
namespace VelumOS.Guarantees.WorkerTargets
open VelumOS.Source VelumOS.Spec

/-- A worker, as the two scans see it: its own entry of the outgoing table is open, or
some inbound connection is mapped to it. -/
def Connected (s : Node) (w : Nat) : Prop :=
  (∃ i : Fin 16, i.val = w ∧ 1 ≤ w ∧ 0 < (s.peerSockets i).val) ∨
    ∃ i : Fin 16, 0 < (s.inboundSockets i).val ∧ s.socketToId (s.inboundSockets i) = w ∧ 0 < w

/-- Those are the positive ids that some connection leads to. -/
theorem connected_iff (s : Node) (w : Nat) :
    Connected s w ↔ 0 < w ∧ ∃ slot, s.Leads slot w := by
  constructor
  · intro connected
    rcases connected with ⟨i, own, positive, live⟩ | ⟨i, live, mapped, positive⟩
    · exact ⟨positive, .peer i, live, own⟩
    · exact ⟨positive, .inbound i, live, mapped⟩
  · intro led
    obtain ⟨positive, slot, live, leads⟩ := led
    cases slot with
    | peer i => exact .inl ⟨i, leads, positive, live⟩
    | inbound i => exact .inr ⟨i, live, leads, positive⟩

/-- A connection leads to one worker. -/
theorem leads_unique (s : Node) (slot : Slot) (v w : Nat) (first : s.Leads slot v)
    (second : s.Leads slot w) : v = w := by
  cases slot with
  | peer i => exact first.2.symm.trans second.2
  | inbound i => exact Int.ofNat_inj.mp (first.2.symm.trans second.2)

/-- With no descriptor in two entries, a target socket tells the worker. -/
theorem target_unique (s : Node) (distinct : Distinct s) (v w : Nat) (fd : Sock)
    (first : s.findTarget v = some fd) (second : s.findTarget w = some fd) : v = w := by
  obtain ⟨slot, leads, same⟩ := s.findTarget_leads v fd first
  obtain ⟨other, leads', same'⟩ := s.findTarget_leads w fd second
  have one : slot = other := distinct slot other leads.1 (same.trans same'.symm)
  subst one
  exact leads_unique s slot v w leads leads'

/-- For all tables and every id: no worker is listed twice, the list has exactly the
connected workers other than the node itself, each of them has a target socket that is
open, and if the open descriptors are pairwise distinct, so are the targets. -/
theorem workers_enumerated (s : Node) (myId : Int) :
    (s.findAllWorkers myId).Nodup ∧
    (∀ w : Nat, w ∈ s.findAllWorkers myId ↔ (w : Int) ≠ myId ∧ Connected s w) ∧
    (∀ w ∈ s.findAllWorkers myId, ∃ fd, s.findTarget w = some fd ∧ s.Open fd) ∧
    (Distinct s → ∀ v ∈ s.findAllWorkers myId, ∀ w ∈ s.findAllWorkers myId, v ≠ w →
      s.findTarget v ≠ s.findTarget w) := by
  have targets : ∀ w ∈ s.findAllWorkers myId, ∃ fd, s.findTarget w = some fd ∧ s.Open fd := by
    intro w listed
    obtain ⟨_, _, slot, leads⟩ := (s.mem_findAllWorkers myId w).mp listed
    obtain ⟨fd, found⟩ := Option.isSome_iff_exists.mp (s.findTarget_isSome w slot leads)
    obtain ⟨slot', leads', rfl⟩ := s.findTarget_leads w fd found
    exact ⟨_, found, leads'.1, slot', rfl⟩
  refine ⟨s.findAllWorkers_nodup myId, ?_, targets, ?_⟩
  · intro w
    rw [s.mem_findAllWorkers, connected_iff]
    exact and_left_comm
  · intro distinct v listed w _ different same
    obtain ⟨fd, found, _⟩ := targets v listed
    exact different (target_unique s distinct v w fd found (same.symm.trans found))

/-- Node 1, connected to node 2 both ways and from node 20. -/
def threeLinks : Node :=
  { Node.boot 1 .zeroed with
    peerSockets := fun i => if i = 2 then fd5 else .free
    inboundSockets := fun i => if i = 0 then fd6 else if i = 1 then ⟨7, by decide⟩ else .free
    socketToId := fun fd => if fd = fd6 then 2 else if fd.val = 7 then 20 else -1 }

theorem threeLinks_distinct : Distinct threeLinks := by
  have outgoing : ∀ i j : Fin 16, 0 < (threeLinks.peerSockets i).val →
      threeLinks.peerSockets i = threeLinks.peerSockets j → i = j := by decide
  have inbound : ∀ i j : Fin 16, 0 < (threeLinks.inboundSockets i).val →
      threeLinks.inboundSockets i = threeLinks.inboundSockets j → i = j := by decide
  have apart : ∀ i j : Fin 16, 0 < (threeLinks.peerSockets i).val →
      threeLinks.peerSockets i ≠ threeLinks.inboundSockets j := by decide
  intro first second live same
  cases first with
  | peer i =>
    cases second with
    | peer j => exact congrArg Slot.peer (outgoing i j live same)
    | inbound j => exact absurd same (apart i j live)
  | inbound i =>
    cases second with
    | peer j =>
      rw [same] at live
      exact absurd same.symm (apart j i live)
    | inbound j => exact congrArg Slot.inbound (inbound i j live same)

/-- Node 2 is listed once and reached on its outgoing socket, node 20 on its inbound one. -/
theorem workers_enumerated_both : threeLinks.findAllWorkers 1 = [2, 20] ∧
    threeLinks.findTarget 2 = some fd5 ∧ threeLinks.findTarget 20 ≠ threeLinks.findTarget 2 :=
  ⟨by decide, by decide, (workers_enumerated threeLinks 1).2.2.2 threeLinks_distinct 20
    (by decide) 2 (by decide) (by decide)⟩

end VelumOS.Guarantees.WorkerTargets
