import VelumOS.Source.NodeLogic

/-!
# Node state and connection tables

The static variables of `src/velum_core.cpp` and the two lookups over the socket
tables: `find_all_workers` and the search for a target socket that both spawn
calls repeat. A worker id is a natural number, since both sources of ids
(`find_best_node`, `find_all_workers`) only produce positive ones.
-/
namespace VelumOS.Source

structure JobState where
  totalNeeded : UInt32
  currentDone : UInt32
  accumulatedValue : Int64
  deriving DecidableEq

structure Node where
  myNodeId : Int
  peerSockets : Fin 16 → Sock
  inboundSockets : Fin 16 → Sock
  socketToId : Sock → Int
  clusterStatus : ClusterStatus
  pendingTasks : Int → Option Message
  activeJobs : UInt32 → Option JobState
  msgBuffer : Message

/-- `MAX_PEERS` is not zero, so a numeral names an entry of a table. -/
instance maxPeers_ne_zero : NeZero 16 := ⟨by decide⟩

/-- A reference to a table entry, as `handle_sock` takes it. -/
inductive Slot where
  | peer (i : Fin 16)
  | inbound (i : Fin 16)
  deriving DecidableEq

/-- The engine's select and read loops start the outgoing table at 1. -/
def Slot.serviced : Slot → Bool
  | .peer i => i.val ≠ 0
  | .inbound _ => true

namespace Node

def sock (s : Node) : Slot → Sock
  | .peer i => s.peerSockets i
  | .inbound i => s.inboundSockets i

def setSock (s : Node) (slot : Slot) (fd : Sock) : Node :=
  match slot with
  | .peer i => { s with peerSockets := Function.update s.peerSockets i fd }
  | .inbound i => { s with inboundSockets := Function.update s.inboundSockets i fd }

/-- `velum_engine_loop` before its first round, in a fresh process. -/
def boot (myNodeId : Int) (msgBuffer : Message) : Node where
  myNodeId := myNodeId
  peerSockets := fun _ => .free
  inboundSockets := fun _ => .free
  socketToId := fun _ => -1
  clusterStatus := fun _ => .zero
  pendingTasks := fun _ => none
  activeJobs := fun _ => none
  msgBuffer := msgBuffer

/-- The first loop of `find_all_workers`. -/
def peerWorkers (s : Node) (myId : Int) : List Nat :=
  ((List.finRange 16).filter fun i =>
    i.val ≠ 0 ∧ (i.val : Int) ≠ myId ∧ 0 < (s.peerSockets i).val).map Fin.val

/-- One round of the second loop of `find_all_workers`. -/
def addInboundWorker (s : Node) (myId : Int) (workers : List Nat) (i : Fin 16) : List Nat :=
  if 0 < (s.inboundSockets i).val then
    if 0 < s.socketToId (s.inboundSockets i) ∧ s.socketToId (s.inboundSockets i) ≠ myId then
      if (s.socketToId (s.inboundSockets i)).toNat ∈ workers then workers
      else workers ++ [(s.socketToId (s.inboundSockets i)).toNat]
    else workers
  else workers

def findAllWorkers (s : Node) (myId : Int) : List Nat :=
  (List.finRange 16).foldl (s.addInboundWorker myId) (s.peerWorkers myId)

/-- One round of the scan of the inbound table for a target. -/
def matchInbound (s : Node) (worker : Nat) (target : Option Sock) (k : Fin 16) : Option Sock :=
  if 0 < (s.inboundSockets k).val ∧ s.socketToId (s.inboundSockets k) = worker then
    some (s.inboundSockets k)
  else target

/-- The whole scan: the last match wins. -/
def inboundTarget (s : Node) (worker : Nat) : Option Sock :=
  (List.finRange 16).foldl (s.matchInbound worker) none

/-- The choice of `target` in both spawn calls; `none` is -1. -/
def findTarget (s : Node) (worker : Nat) : Option Sock :=
  if inside : worker < 16 then
    if 0 < (s.peerSockets ⟨worker, inside⟩).val then some (s.peerSockets ⟨worker, inside⟩)
    else s.inboundTarget worker
  else s.inboundTarget worker

@[simp] theorem sock_peer (s : Node) (i : Fin 16) : s.sock (.peer i) = s.peerSockets i := rfl

@[simp] theorem sock_inbound (s : Node) (i : Fin 16) :
    s.sock (.inbound i) = s.inboundSockets i := rfl

@[simp] theorem setSock_socketToId (s : Node) (slot : Slot) (fd : Sock) :
    (s.setSock slot fd).socketToId = s.socketToId := by cases slot <;> rfl

@[simp] theorem setSock_clusterStatus (s : Node) (slot : Slot) (fd : Sock) :
    (s.setSock slot fd).clusterStatus = s.clusterStatus := by cases slot <;> rfl

@[simp] theorem setSock_pendingTasks (s : Node) (slot : Slot) (fd : Sock) :
    (s.setSock slot fd).pendingTasks = s.pendingTasks := by cases slot <;> rfl

@[simp] theorem setSock_activeJobs (s : Node) (slot : Slot) (fd : Sock) :
    (s.setSock slot fd).activeJobs = s.activeJobs := by cases slot <;> rfl

@[simp] theorem setSock_msgBuffer (s : Node) (slot : Slot) (fd : Sock) :
    (s.setSock slot fd).msgBuffer = s.msgBuffer := by cases slot <;> rfl

@[simp] theorem setSock_myNodeId (s : Node) (slot : Slot) (fd : Sock) :
    (s.setSock slot fd).myNodeId = s.myNodeId := by cases slot <;> rfl

/-- A store to one table entry changes that entry only. -/
theorem sock_setSock (s : Node) (slot other : Slot) (fd : Sock) :
    (s.setSock slot fd).sock other = if other = slot then fd else s.sock other := by
  cases slot <;> cases other <;> simp [setSock, sock, Function.update_apply]

/-- An open connection: a descriptor in one of the two tables. -/
def Open (s : Node) (fd : Sock) : Prop := 0 < fd.val ∧ ∃ slot, s.sock slot = fd

/-- The connection in a slot leads to a worker: it was opened for its id, or its
descriptor is mapped to it. -/
def Leads (s : Node) (slot : Slot) (worker : Nat) : Prop :=
  0 < (s.sock slot).val ∧
    match slot with
    | .peer i => i.val = worker
    | .inbound i => s.socketToId (s.inboundSockets i) = worker

theorem mem_peerWorkers (s : Node) (myId : Int) (worker : Nat) :
    worker ∈ s.peerWorkers myId ↔
      0 < worker ∧ (worker : Int) ≠ myId ∧ ∃ i, s.Leads (.peer i) worker := by
  simp only [peerWorkers, List.mem_map, List.mem_filter, List.mem_finRange, true_and,
    decide_eq_true_eq, Leads, sock_peer]
  constructor
  · intro listed
    obtain ⟨i, ⟨nonzero, foreign, live⟩, rfl⟩ := listed
    exact ⟨by omega, foreign, i, live, rfl⟩
  · intro led
    obtain ⟨positive, foreign, i, live, rfl⟩ := led
    exact ⟨i, ⟨by omega, foreign, live⟩, rfl⟩

theorem mem_addInboundWorker (s : Node) (myId : Int) (workers : List Nat) (i : Fin 16)
    (worker : Nat) : worker ∈ s.addInboundWorker myId workers i ↔
      worker ∈ workers ∨ (0 < worker ∧ (worker : Int) ≠ myId ∧ s.Leads (.inbound i) worker) := by
  unfold addInboundWorker
  simp only [Leads, sock_inbound]
  split
  · next live =>
    split
    · next foreign =>
      have mapped : s.socketToId (s.inboundSockets i) = worker ↔
          (s.socketToId (s.inboundSockets i)).toNat = worker := by omega
      split <;> grind
    · grind
  · grind

theorem mem_foldl_addInboundWorker (s : Node) (myId : Int) (is : List (Fin 16))
    (workers : List Nat) (worker : Nat) :
    worker ∈ is.foldl (s.addInboundWorker myId) workers ↔
      worker ∈ workers ∨
        (0 < worker ∧ (worker : Int) ≠ myId ∧ ∃ i ∈ is, s.Leads (.inbound i) worker) := by
  induction is generalizing workers with
  | nil => simp
  | cons i rest ih =>
    rw [List.foldl_cons, ih, mem_addInboundWorker]
    simp only [List.mem_cons, exists_eq_or_imp]
    tauto

/-- `find_all_workers` lists the foreign ids that an open connection leads to. -/
theorem mem_findAllWorkers (s : Node) (myId : Int) (worker : Nat) :
    worker ∈ s.findAllWorkers myId ↔
      0 < worker ∧ (worker : Int) ≠ myId ∧ ∃ slot, s.Leads slot worker := by
  rw [findAllWorkers, mem_foldl_addInboundWorker, mem_peerWorkers]
  simp only [List.mem_finRange, true_and]
  constructor
  · intro either
    rcases either with ⟨positive, foreign, i, leads⟩ | ⟨positive, foreign, i, leads⟩
    · exact ⟨positive, foreign, _, leads⟩
    · exact ⟨positive, foreign, _, leads⟩
  · intro led
    obtain ⟨positive, foreign, slot, leads⟩ := led
    cases slot with
    | peer i => exact Or.inl ⟨positive, foreign, i, leads⟩
    | inbound i => exact Or.inr ⟨positive, foreign, i, leads⟩

theorem addInboundWorker_nodup (s : Node) (myId : Int) (workers : List Nat) (i : Fin 16)
    (unique : workers.Nodup) : (s.addInboundWorker myId workers i).Nodup := by
  unfold addInboundWorker
  split
  · split
    · split
      · exact unique
      · next absent =>
        rw [List.nodup_append]
        exact ⟨unique, by simp, by simp; grind⟩
    · exact unique
  · exact unique

/-- No worker is listed twice. -/
theorem findAllWorkers_nodup (s : Node) (myId : Int) : (s.findAllWorkers myId).Nodup := by
  have keeps : ∀ (is : List (Fin 16)) (workers : List Nat), workers.Nodup →
      (is.foldl (s.addInboundWorker myId) workers).Nodup := by
    intro is
    induction is with
    | nil => exact fun _ unique => unique
    | cons i rest ih => exact fun workers unique => ih _ (s.addInboundWorker_nodup myId workers i unique)
  apply keeps
  apply List.Nodup.map Fin.val_injective
  exact (List.nodup_finRange 16).filter _

theorem addInboundWorker_length_le (s : Node) (myId : Int) (workers : List Nat) (i : Fin 16) :
    (s.addInboundWorker myId workers i).length ≤ workers.length + 1 := by
  unfold addInboundWorker
  split
  · split
    · split <;> simp
    · omega
  · omega

/-- The two tables have 32 entries between them. -/
theorem findAllWorkers_length_le (s : Node) (myId : Int) : (s.findAllWorkers myId).length ≤ 32 := by
  have grows : ∀ (is : List (Fin 16)) (workers : List Nat),
      (is.foldl (s.addInboundWorker myId) workers).length ≤ workers.length + is.length := by
    intro is
    induction is with
    | nil => simp
    | cons i rest ih =>
      intro workers
      have first := s.addInboundWorker_length_le myId workers i
      have later := ih (s.addInboundWorker myId workers i)
      rw [List.foldl_cons, List.length_cons]
      omega
  have inbound := grows (List.finRange 16) (s.peerWorkers myId)
  have outgoing : (s.peerWorkers myId).length ≤ 16 := by
    rw [peerWorkers, List.length_map]
    exact (List.length_filter_le _ _).trans (by simp)
  rw [List.length_finRange] at inbound
  rw [findAllWorkers]
  omega

theorem matchInbound_of_leads (s : Node) (worker : Nat) (target : Option Sock) (k : Fin 16)
    (leads : s.Leads (.inbound k) worker) :
    s.matchInbound worker target k = some (s.inboundSockets k) := if_pos leads

theorem matchInbound_of_not_leads (s : Node) (worker : Nat) (target : Option Sock) (k : Fin 16)
    (other : ¬ s.Leads (.inbound k) worker) : s.matchInbound worker target k = target :=
  if_neg other

/-- What the scan finds was there before it or leads to the worker. -/
theorem foldl_matchInbound_sound (s : Node) (worker : Nat) (is : List (Fin 16))
    (start : Option Sock) (fd : Sock) (found : is.foldl (s.matchInbound worker) start = some fd) :
    start = some fd ∨ ∃ i, s.Leads (.inbound i) worker ∧ fd = s.inboundSockets i := by
  induction is generalizing start with
  | nil => exact Or.inl found
  | cons i rest ih =>
    by_cases leads : s.Leads (.inbound i) worker
    · rw [List.foldl_cons, matchInbound_of_leads s worker start i leads] at found
      rcases ih _ found with here | later
      · exact Or.inr ⟨i, leads, (Option.some.inj here).symm⟩
      · exact Or.inr later
    · rw [List.foldl_cons, matchInbound_of_not_leads s worker start i leads] at found
      exact ih _ found

/-- A match anywhere in the table is not lost by the rounds after it. -/
theorem foldl_matchInbound_isSome (s : Node) (worker : Nat) (is : List (Fin 16))
    (start : Option Sock) (source : start.isSome ∨ ∃ i ∈ is, s.Leads (.inbound i) worker) :
    (is.foldl (s.matchInbound worker) start).isSome := by
  induction is generalizing start with
  | nil => simpa using source
  | cons i rest ih =>
    by_cases leads : s.Leads (.inbound i) worker
    · rw [List.foldl_cons, matchInbound_of_leads s worker start i leads]
      exact ih _ (Or.inl rfl)
    · rw [List.foldl_cons, matchInbound_of_not_leads s worker start i leads]
      apply ih
      rcases source with old | ⟨k, member, hit⟩
      · exact Or.inl old
      · rcases List.mem_cons.mp member with rfl | inside
        · exact absurd hit leads
        · exact Or.inr ⟨k, inside, hit⟩

theorem inboundTarget_leads (s : Node) (worker : Nat) (fd : Sock)
    (found : s.inboundTarget worker = some fd) :
    ∃ slot, s.Leads slot worker ∧ s.sock slot = fd := by
  rcases s.foldl_matchInbound_sound worker _ none fd found with impossible | ⟨i, leads, rfl⟩
  · cases impossible
  · exact ⟨.inbound i, leads, rfl⟩

/-- A target socket is an open connection that leads to the worker. -/
theorem findTarget_leads (s : Node) (worker : Nat) (fd : Sock)
    (found : s.findTarget worker = some fd) :
    ∃ slot, s.Leads slot worker ∧ s.sock slot = fd := by
  unfold findTarget at found
  split at found
  · next inside =>
    split at found
    · next live =>
      cases found
      exact ⟨.peer ⟨worker, inside⟩, ⟨live, rfl⟩, rfl⟩
    · exact s.inboundTarget_leads worker fd found
  · exact s.inboundTarget_leads worker fd found

/-- The lookup never fails for a worker that some open connection leads to. -/
theorem findTarget_isSome (s : Node) (worker : Nat) (slot : Slot) (leads : s.Leads slot worker) :
    (s.findTarget worker).isSome := by
  unfold findTarget
  cases slot with
  | peer i =>
    obtain ⟨live, rfl⟩ := leads
    rw [sock_peer] at live
    rw [dif_pos i.isLt, if_pos live]
    rfl
  | inbound i =>
    have inbound := s.foldl_matchInbound_isSome worker (List.finRange 16) none
      (Or.inr ⟨i, List.mem_finRange i, leads⟩)
    split
    · split
      · rfl
      · exact inbound
    · exact inbound

end Node
end VelumOS.Source
