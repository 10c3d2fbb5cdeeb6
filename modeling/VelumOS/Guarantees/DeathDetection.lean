import VelumOS.Spec.Connections

/-!
# When a node is declared dead

Two nodes that discover each other hold a connection in each direction, and both
are mapped to the same id. `handle_sock` looks at the one that closed: if it is
mapped to a node, the node is declared dead and its ledger entry erased, whether or
not another connection to it is open.
-/
namespace VelumOS.Guarantees.DeathDetection
open VelumOS.Source VelumOS.Spec Base.Runs Base.KeyedStore

/-- The step declares a node dead or erases its ledger entry. -/
def Declares (t : Transition Node Event Action) (nodeId : Int) : Prop :=
  .died nodeId ∈ t.actions ∨ (t.before.pendingTasks nodeId ≠ none ∧ t.after.pendingTasks nodeId = none)

/-- An open connection is mapped to the node. -/
def Mapped (s : Node) (nodeId : Int) : Prop :=
  ∃ slot, 0 < (s.sock slot).val ∧ s.socketToId (s.sock slot) = nodeId

/-- Nodes are declared dead only when no connection to them is left. -/
def DeadIsGone (t : Transition Node Event Action) : Prop :=
  ∀ nodeId, Declares t nodeId → ¬ Mapped t.after nodeId

/-- The step does not close one of several connections mapped to a node. -/
def ClosesOnly (s : Node) (event : Event) : Prop :=
  ∀ slot ctx, event = .read slot .failed ctx → slot.serviced = true → 0 < (s.sock slot).val →
    s.socketToId (s.sock slot) ≠ -1 → ∀ other, other ≠ slot → 0 < (s.sock other).val →
    s.socketToId (s.sock other) ≠ s.socketToId (s.sock slot)

/-- A close declares the node that its connection is mapped to, and no other. -/
theorem declared_closeConnection (s : Node) (slot : Slot) (event : Event) (nodeId : Int)
    (declared : Declares ⟨s, event, (s.closeConnection slot).2, (s.closeConnection slot).1⟩ nodeId) :
    nodeId = s.socketToId (s.sock slot) ∧ nodeId ≠ -1 := by
  rcases declared with announced | ⟨held, erased⟩
  · rw [closeConnection_actions] at announced
    split at announced
    · simp at announced
    · next mapped =>
      have same : nodeId = s.socketToId (s.sock slot) := by simpa using announced
      exact ⟨same, same ▸ mapped⟩
  · rw [closeConnection_pendingTasks] at erased
    split at erased
    · exact absurd erased held
    · next mapped =>
      have same : nodeId = s.socketToId (s.sock slot) := by
        by_contra different
        rw [Function.update_of_ne different] at erased
        exact held erased
      exact ⟨same, same ▸ mapped⟩

/-- Only a close of a mapped connection declares anything. -/
theorem declares_cases (t : Transition Node Event Action) (nodeId : Int)
    (effect : Effect t.before t.event t.actions t.after) (declared : Declares t nodeId) :
    ∃ slot ctx, t.event = .read slot .failed ctx ∧ slot.serviced = true ∧
      0 < (t.before.sock slot).val ∧ t.after = (t.before.closeConnection slot).1 ∧
      t.actions = (t.before.closeConnection slot).2 ∧
      nodeId = t.before.socketToId (t.before.sock slot) ∧ nodeId ≠ -1 := by
  obtain ⟨before, event, actions, after⟩ := t
  replace effect : Effect before event actions after := effect
  have unheld (same : after.pendingTasks = before.pendingTasks) (silent : .died nodeId ∉ actions) :
      ¬ Declares ⟨before, event, actions, after⟩ nodeId := by
    intro declared
    rcases declared with announced | ⟨held, erased⟩
    · exact silent announced
    · exact held (same ▸ erased)
  cases effect with
  | quiet sends =>
    apply absurd declared
    apply unheld rfl
    intro member
    obtain ⟨fd, msg, same⟩ := sends _ member
    cases same
  | connected => exact absurd declared (unheld rfl (by simp))
  | admitted => exact absurd declared (unheld rfl (by simp))
  | failedAccept => exact absurd declared (unheld rfl (by simp))
  | refused => exact absurd declared (unheld rfl (by simp))
  | @closed slot ctx live serviced =>
    exact ⟨slot, ctx, rfl, serviced, live, rfl, rfl,
      declared_closeConnection before slot _ nodeId declared⟩
  | received _ _ _ sends =>
    apply absurd declared
    apply unheld rfl
    intro member
    rcases List.mem_cons.mp member with same | later
    · cases same
    · obtain ⟨fd, msg, same⟩ := sends _ later
      cases same
  | spawned => exact absurd declared (unheld rfl (by simp))
  | @scattered _ _ _ start stop tasks jobId =>
    rcases declared with announced | ⟨held, erased⟩
    · simp at announced
    · have kept := storeAll_isSome before.pendingTasks (ledgerEntries tasks) nodeId
        (Option.isSome_iff_ne_none.mpr held)
      rw [scatter_pendingTasks] at erased
      rw [erased] at kept
      cases kept

theorem died_closeConnection (s : Node) (slot : Slot) (nodeId : Int)
    (mapped : s.socketToId (s.sock slot) = nodeId) (named : nodeId ≠ -1) :
    .died nodeId ∈ (s.closeConnection slot).2 := by
  rw [closeConnection_actions, mapped, if_neg named]
  simp

/-- The connections left after a close, and what they are mapped to. -/
theorem mapped_closeConnection (s : Node) (slot : Slot) (nodeId : Int) :
    Mapped (s.closeConnection slot).1 nodeId ↔
      ∃ other, other ≠ slot ∧ 0 < (s.sock other).val ∧ s.socketToId (s.sock other) = nodeId := by
  constructor
  · intro left
    obtain ⟨other, live, mapped⟩ := left
    rw [closeConnection_socketToId, closeConnection_sock] at mapped
    rw [closeConnection_sock] at live
    split at live
    · exact absurd live (by decide)
    · next elsewhere =>
      rw [if_neg elsewhere, Function.update_of_ne (ne_free_of_live live)] at mapped
      exact ⟨other, elsewhere, live, mapped⟩
  · intro left
    obtain ⟨other, elsewhere, live, mapped⟩ := left
    refine ⟨other, ?_⟩
    rw [closeConnection_socketToId, closeConnection_sock, if_neg elsewhere,
      Function.update_of_ne (ne_free_of_live live)]
    exact ⟨live, mapped⟩

theorem deadIsGone_iff (t : Transition Node Event Action) (valid : t.Valid Node.Step) :
    DeadIsGone t ↔ ClosesOnly t.before t.event := by
  have effect := Node.Step.effect valid
  constructor
  · intro gone slot ctx closing serviced live mapped other elsewhere alive same
    obtain ⟨before, event, actions, after⟩ := t
    cases closing
    have close := (step_close before slot ctx serviced live).2
    have result := valid.2.symm.trans close
    simp only [Except.ok.injEq, Prod.mk.injEq] at result
    obtain ⟨rfl, rfl⟩ := result
    exact gone _ (.inl (died_closeConnection before slot _ rfl mapped))
      ((mapped_closeConnection before slot _).mpr ⟨other, elsewhere, alive, same⟩)
  · intro only nodeId declared left
    obtain ⟨slot, ctx, closing, serviced, live, after, _, same, mapped⟩ :=
      declares_cases t nodeId effect declared
    rw [after, mapped_closeConnection] at left
    obtain ⟨other, elsewhere, alive, also⟩ := left
    exact only slot ctx closing serviced live (same ▸ mapped) other elsewhere alive (also.trans same)

/-- In every run, nodes are declared dead and their ledger entries erased only when
no connection to them is left, if and only if no step closes one of several open
connections that are mapped to the same node. -/
theorem death_declared_iff {start last : Node} {steps : List (Transition Node Event Action)}
    (run : Run Node.Step start steps last) :
    (∀ t ∈ steps, DeadIsGone t) ↔ ∀ t ∈ steps, ClosesOnly t.before t.event := by
  constructor
  · intro gone t member
    exact (deadIsGone_iff t (run.valid t member)).mp (gone t member)
  · intro only t member
    exact (deadIsGone_iff t (run.valid t member)).mpr (only t member)

/-- The only connection to node 2 closes. -/
theorem death_declared_single : ∃ last steps, Run Node.Step connectedTwo steps last ∧
    (∃ t ∈ steps, Declares t 2) ∧ ∀ t ∈ steps, DeadIsGone t := by
  have run := Run.single (step_close connectedTwo (.peer 2) .refusing rfl (by decide))
  have died := died_closeConnection connectedTwo (.peer 2) 2 (by decide) (by decide)
  refine ⟨_, _, run, ⟨_, List.mem_singleton.mpr rfl, .inl died⟩,
    (death_declared_iff run).mpr fun t member => ?_⟩
  rw [List.mem_singleton.mp member]
  intro slot ctx closing _ _ _ other elsewhere live
  cases closing
  rw [connectedTwo_sock, if_neg elsewhere] at live
  exact absurd live (by decide)

/-- Node 2 also opened a connection, on descriptor 6, and spoke on it. -/
def bothWays : Node :=
  (connectedTwo.setSock (.inbound 0) fd6).afterRead fd6 ⟨2, .heartbeat, .fill 4096 0⟩

/-- One of the two connections closes: node 2 is declared dead while the other one
is open. -/
theorem death_declared_both_ways : ¬ ∀ (last : Node) (steps : List (Transition Node Event Action))
    (_ : Run Node.Step (.boot 1 .zeroed) steps last), ∀ t ∈ steps, DeadIsGone t := by
  intro always
  have accept := step_accept connectedTwo fd6 rfl (by decide) (by
    intro slot
    rw [connectedTwo_sock]
    split <;> decide)
  have speak := step_receive (connectedTwo.setSock (.inbound 0) fd6) (.inbound 0) .refusing
    ⟨2, .heartbeat, .fill 4096 0⟩ rfl (by decide) (.inl rfl)
  have close := step_close bothWays (.peer 2) .refusing rfl (by decide)
  have run := (((Run.single step_connectTwo).snoc accept).snoc speak).snoc close
  have gone := always _ _ run _ List.mem_concat_self
  have died := died_closeConnection bothWays (.peer 2) 2 (by decide) (by decide)
  exact gone 2 (.inl died) ((mapped_closeConnection bothWays (.peer 2) 2).mpr
    ⟨.inbound 0, by decide, by decide, by decide⟩)

end VelumOS.Guarantees.DeathDetection
