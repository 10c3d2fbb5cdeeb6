import Mathlib

/-!
# Links that lose messages only when they break

Links between nodes of any kind. A link carries whole messages both ways, each way in
the order in which they were sent, until it is cut; then what is in flight on it is
lost, and so is what is sent on it later. The packets of all links are kept in one list,
oldest first, so that the next message at an end of a link is the first packet for it.
-/
namespace VelumOS.Base.Links

/-- A link has its own number, a node that opened it and a node that was called. -/
structure Link (ι : Type) where
  serial : Nat
  opener : ι
  called : ι
  deriving DecidableEq

inductive Side where
  | opener | called
  deriving DecidableEq

structure End (ι : Type) where
  link : Link ι
  side : Side
  deriving DecidableEq

structure Packet (ι μ : Type) where
  dest : End ι
  msg : μ

/-- The links made so far, those that still work, and what is in flight on them. -/
structure Medium (ι μ : Type) where
  made : Nat
  up : List (Link ι)
  flight : List (Packet ι μ)

variable {ι μ : Type}

namespace End

/-- The node at this end. -/
def near (e : End ι) : ι :=
  match e.side with
  | .opener => e.link.opener
  | .called => e.link.called

def opposite (e : End ι) : End ι where
  link := e.link
  side := match e.side with
    | .opener => .called
    | .called => .opener

/-- The node at the other end. -/
def far (e : End ι) : ι := e.opposite.near

@[simp] theorem opposite_opposite (e : End ι) : e.opposite.opposite = e := by
  obtain ⟨link, side⟩ := e
  cases side <;> rfl

@[simp] theorem near_opposite (e : End ι) : e.opposite.near = e.far := rfl

@[simp] theorem far_opposite (e : End ι) : e.opposite.far = e.near := by
  rw [far, opposite_opposite]

end End

namespace Medium

/-- No link was made yet. -/
def empty : Medium ι μ := ⟨0, [], []⟩

/-- The link that `connect` would make. -/
def next (m : Medium ι μ) (opener called : ι) : Link ι := ⟨m.made, opener, called⟩

def connect (m : Medium ι μ) (opener called : ι) : Medium ι μ :=
  { m with made := m.made + 1, up := m.next opener called :: m.up }

section Decidable
variable [DecidableEq ι]

/-- A message sent at an end is in flight to the other one if the link works. -/
def post (m : Medium ι μ) (e : End ι) (msg : μ) : Medium ι μ :=
  if e.link ∈ m.up then { m with flight := m.flight ++ [⟨e.opposite, msg⟩] } else m

def cut (m : Medium ι μ) (link : Link ι) : Medium ι μ :=
  { m with
    up := m.up.filter (· ≠ link)
    flight := m.flight.filter fun p => p.dest.link ≠ link }

end Decidable

/-- The next message at an end, and the medium after it was taken. -/
inductive Takes (m : Medium ι μ) (e : End ι) (msg : μ) : Medium ι μ → Prop
  | first (front back : List (Packet ι μ)) (flight : m.flight = front ++ ⟨e, msg⟩ :: back)
      (oldest : ∀ p ∈ front, p.dest ≠ e) : Takes m e msg { m with flight := front ++ back }

/-! ## What stays in flight -/

theorem mem_flight_post [DecidableEq ι] {m : Medium ι μ} {e : End ι} {msg : μ} {p : Packet ι μ}
    (member : p ∈ (m.post e msg).flight) : p ∈ m.flight ∨ p = ⟨e.opposite, msg⟩ := by
  unfold post at member
  split at member
  · rcases List.mem_append.mp member with old | new
    · exact .inl old
    · exact .inr (List.mem_singleton.mp new)
  · exact .inl member

theorem flight_cut_sublist [DecidableEq ι] (m : Medium ι μ) (link : Link ι) :
    (m.cut link).flight.Sublist m.flight := List.filter_sublist

/-- A message that is taken was in flight, and nothing else was taken. -/
theorem Takes.mem_flight {m left : Medium ι μ} {e : End ι} {msg : μ} (taken : m.Takes e msg left) :
    ⟨e, msg⟩ ∈ m.flight ∧ left.flight.Sublist m.flight := by
  obtain ⟨front, back, flight, _⟩ := taken
  rw [flight]
  exact ⟨by simp, (List.sublist_cons_self _ back).append_left front⟩

section Count
variable (q : Packet ι μ → Bool)

/-- A message sent is counted at most once. -/
theorem countP_post_le [DecidableEq ι] (m : Medium ι μ) (e : End ι) (msg : μ) :
    (m.post e msg).flight.countP q ≤ m.flight.countP q + if q ⟨e.opposite, msg⟩ then 1 else 0 := by
  unfold post
  split
  · rw [List.countP_append, List.countP_singleton]
  · omega

theorem countP_cut_le [DecidableEq ι] (m : Medium ι μ) (link : Link ι) :
    (m.cut link).flight.countP q ≤ m.flight.countP q := (m.flight_cut_sublist link).countP_le

/-- A message taken is no longer counted. -/
theorem Takes.countP {m left : Medium ι μ} {e : End ι} {msg : μ} (taken : m.Takes e msg left) :
    m.flight.countP q = left.flight.countP q + if q ⟨e, msg⟩ then 1 else 0 := by
  obtain ⟨front, back, flight, _⟩ := taken
  rw [flight, List.countP_append, List.countP_append, List.countP_cons]
  omega

end Count
end Medium
end VelumOS.Base.Links
