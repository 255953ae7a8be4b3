import Mathlib.Data.List.ReduceOption
import Mathlib.Order.MinMax

/-!
# Bounded broadcast channels

A channel every receiver of which gets every message: a queue of bounded capacity in which a
message **holds its slot until every active receiver has received it**. Sending to a full
channel fails instead of waiting, and closing a channel leaves the queued messages to be
received.

The queue is not stored. A channel is the list of everything ever sent together with a position
for each receiver, and the queue is what lies between the slowest active receiver and the end.
The positions carry their bound as a field, so no receiver can run ahead of the sender.

## What a proof uses

* `tryBroadcast_eq_ok_iff` and `recv_cases` are everything the two operations can do.
* `dropReceiver_closed_eq`: dropping a receiver closes nothing while another one is active.
* `queue_eq_sent`: a receiver that never receives keeps **every** message in the queue, whatever
  the others do. This is what a forgotten receiver costs.
-/

/-- Why a message was not sent. -/
inductive TryBroadcastError where
  /-- The channel has been closed. -/
  | closed
  /-- There is no receiver. -/
  | inactive
  /-- The queue holds `capacity` messages. -/
  | full
  deriving DecidableEq

/-- The one way `recv` fails on a channel without overflow mode. -/
inductive RecvError where
  | closed
  deriving DecidableEq

/-- A broadcast channel. -/
structure BroadcastChannel (α : Type*) where
  /-- The most messages the queue can hold. -/
  capacity : ℕ
  /-- Everything sent so far, in order. -/
  sent : List α
  /-- For each receiver ever made, how much of `sent` it has received; `none` once dropped. -/
  positions : List (Option ℕ)
  closed : Bool
  /-- No receiver is ahead of the sender. -/
  position_le : ∀ p, some p ∈ positions → p ≤ sent.length

namespace BroadcastChannel

variable {α : Type*}

/-- A new channel with its one receiver. -/
def broadcast (capacity : ℕ) : BroadcastChannel α where
  capacity := capacity
  sent := []
  positions := [some 0]
  closed := false
  position_le := by simp

variable (c : BroadcastChannel α)

/-- The position of an active receiver. -/
def position (i : ℕ) : Option ℕ := c.positions[i]?.join

/-- How many messages every active receiver has received. -/
def released : ℕ := c.positions.reduceOption.foldr min c.sent.length

/-- The messages that hold a slot. -/
def queue : List α := c.sent.drop c.released

/-- Send to every active receiver, without waiting for room. -/
def tryBroadcast (m : α) : Except TryBroadcastError (BroadcastChannel α) :=
  if c.closed then .error .closed
  else if c.positions.reduceOption = [] then .error .inactive
  else if c.capacity ≤ c.queue.length then .error .full
  else .ok { c with
    sent := c.sent ++ [m]
    position_le := fun p hp ↦ (c.position_le p hp).trans (List.prefix_append ..).length_le }

/-- Receive the next message. A closed channel gives its queued messages first; `none` is a
receiver that has to wait. -/
def recv (i : ℕ) : Option (Except RecvError α × BroadcastChannel α) :=
  match c.position i with
  | none => none
  | some p =>
    if h : p < c.sent.length then
      some (.ok c.sent[p], { c with
        positions := c.positions.set i (some (p + 1))
        position_le := fun q hq ↦ by
          rcases List.mem_or_eq_of_mem_set hq with hq | hq
          · exact c.position_le q hq
          · obtain rfl := Option.some.inj hq
            exact h })
    else if c.closed then some (.error .closed, c)
    else none

/-- A new receiver that has received what receiver `i` has; it gets the next free index. -/
def cloneReceiver (i : ℕ) : BroadcastChannel α :=
  { c with
    positions := c.positions ++ [c.position i]
    position_le := fun p hp ↦ by
      rcases List.mem_append.1 hp with hp | hp
      · exact c.position_le p hp
      · refine c.position_le p ?_
        rw [position, List.mem_singleton, eq_comm, Option.join_eq_some_iff] at hp
        exact List.mem_of_getElem? hp }

/-- Drop a receiver; the last one closes the channel. -/
def dropReceiver (i : ℕ) : BroadcastChannel α :=
  { c with
    positions := c.positions.set i none
    closed := c.closed || (c.positions.set i none).reduceOption.isEmpty
    position_le := fun p hp ↦ by
      rcases List.mem_or_eq_of_mem_set hp with hp | hp
      · exact c.position_le p hp
      · cases hp }

/-- Close the channel. -/
def close : BroadcastChannel α := { c with closed := true }

variable {c} {c' : BroadcastChannel α} {i j p : ℕ} {m : α}

/-! ### What the operations do -/

@[simp] theorem close_closed : c.close.closed = true := rfl

@[simp] theorem close_position : c.close.position i = c.position i := rfl

theorem dropReceiver_position_of_ne (hne : j ≠ i) :
    (c.dropReceiver i).position j = c.position j := by
  rw [position, position, dropReceiver, List.getElem?_set_ne hne.symm]

theorem dropReceiver_closed (h : c.closed = true) : (c.dropReceiver i).closed = true := by
  simp [dropReceiver, h]

theorem mem_positions (h : c.position i = some p) : some p ∈ c.positions :=
  List.mem_of_getElem? (Option.join_eq_some_iff.1 h)

/-- The channel stays as it is while another receiver is active. -/
theorem dropReceiver_closed_eq (hne : j ≠ i) (h : c.position j = some p) :
    (c.dropReceiver i).closed = c.closed := by
  have hj : (c.dropReceiver i).position j = some p := by
    rw [dropReceiver_position_of_ne hne, h]
  have hactive : p ∈ (c.positions.set i none).reduceOption :=
    List.reduceOption_mem_iff.2 (mem_positions hj)
  simp [dropReceiver, List.ne_nil_of_mem hactive]

theorem le_of_position (h : c.position i = some p) : p ≤ c.sent.length :=
  c.position_le p (mem_positions h)

theorem tryBroadcast_eq_ok_iff : c.tryBroadcast m = .ok c' ↔
    c.closed = false ∧ c.positions.reduceOption ≠ [] ∧ c.queue.length < c.capacity ∧
      c' = { c with
        sent := c.sent ++ [m]
        position_le := fun p hp ↦
          (c.position_le p hp).trans (List.prefix_append ..).length_le } := by
  rw [tryBroadcast]
  split_ifs with hclosed hactive hfull
  · simp [hclosed]
  · simp [hactive]
  · simp [hfull]
  · simp only [Except.ok.injEq, hclosed, hactive, not_le.1 hfull, ne_eq, not_false_eq_true,
      true_and]
    exact eq_comm

/-- The message is appended; nothing else changes. -/
theorem sent_of_tryBroadcast (h : c.tryBroadcast m = .ok c') :
    c'.sent = c.sent ++ [m] ∧ c'.positions = c.positions ∧ c'.closed = c.closed ∧
      c'.capacity = c.capacity := by
  obtain ⟨-, -, -, rfl⟩ := tryBroadcast_eq_ok_iff.1 h
  exact ⟨rfl, rfl, rfl, rfl⟩

theorem position_of_tryBroadcast (h : c.tryBroadcast m = .ok c') :
    c'.position i = c.position i := by
  rw [position, position, (sent_of_tryBroadcast h).2.1]

/-- A receiver that has not received everything gets the next message. -/
theorem recv_of_lt (h : c.position i = some p) (hm : c.sent[p]? = some m) :
    ∃ c', c.recv i = some (.ok m, c') ∧ c'.sent = c.sent ∧ c'.closed = c.closed ∧
      c'.capacity = c.capacity ∧ c'.positions = c.positions.set i (some (p + 1)) := by
  obtain ⟨hlt, rfl⟩ := List.getElem?_eq_some_iff.1 hm
  rw [recv, h]
  simp only [hlt, ↓reduceDIte]
  exact ⟨_, rfl, rfl, rfl, rfl, rfl⟩

/-- A receiver that has received everything learns that the channel is closed, or waits. -/
theorem recv_of_eq (h : c.position i = some c.sent.length) :
    c.recv i = if c.closed then some (.error .closed, c) else none := by
  rw [recv, h]
  simp

/-- Everything a receive can do: the next message, or the news that the channel is closed. -/
theorem recv_cases {res : Except RecvError α} (h : c.recv i = some (res, c')) :
    ∃ p, c.position i = some p ∧
      ((∃ m, res = .ok m ∧ c.sent[p]? = some m ∧ c'.sent = c.sent ∧ c'.closed = c.closed ∧
          c'.positions = c.positions.set i (some (p + 1))) ∨
        (res = .error .closed ∧ c.sent.length ≤ p ∧ c.closed = true ∧ c' = c)) := by
  rw [recv] at h
  rcases hp : c.position i with - | p
  · simp [hp] at h
  · refine ⟨p, rfl, ?_⟩
    simp only [hp] at h
    split_ifs at h with hlt hclosed
    · cases h
      exact Or.inl ⟨_, rfl, List.getElem?_eq_getElem hlt, rfl, rfl, rfl⟩
    · cases h
      exact Or.inr ⟨rfl, Nat.le_of_not_lt hlt, hclosed, rfl⟩

theorem position_set_self (h : c.position i = some p)
    (hc' : c'.positions = c.positions.set i (some j)) : c'.position i = some j := by
  have hi : i < c.positions.length := by
    rw [position, Option.join_eq_some_iff] at h
    exact (List.getElem?_eq_some_iff.1 h).1
  rw [position, hc', List.getElem?_set_self hi]
  rfl

theorem position_set_of_ne {k : ℕ} (hne : k ≠ i)
    (hc' : c'.positions = c.positions.set i (some j)) : c'.position k = c.position k := by
  rw [position, position, hc', List.getElem?_set_ne hne.symm]

theorem capacity_of_recv {res : Except RecvError α} (h : c.recv i = some (res, c')) :
    c'.capacity = c.capacity := by
  rw [recv] at h
  split at h
  · cases h
  · split_ifs at h <;> cases h <;> rfl

/-- A receive moves one receiver. -/
theorem position_of_recv {res : Except RecvError α} (hne : j ≠ i)
    (h : c.recv i = some (res, c')) : c'.position j = c.position j := by
  obtain ⟨p, -, ⟨m, -, -, -, -, hpos⟩ | ⟨-, -, -, rfl⟩⟩ := recv_cases h
  · exact position_set_of_ne hne hpos
  · rfl

/-! ### The queue -/

theorem released_le_position (h : some p ∈ c.positions) : c.released ≤ p := by
  have hmem : p ∈ c.positions.reduceOption := List.reduceOption_mem_iff.2 h
  rw [released]
  generalize c.positions.reduceOption = ps at hmem
  induction ps with
  | nil => cases hmem
  | cons q qs ih =>
    rcases List.mem_cons.1 hmem with rfl | hmem
    · exact min_le_left _ _
    · exact (min_le_right _ _).trans (ih hmem)

/-- **A receiver that never receives fills the channel.** As long as one active receiver has
received nothing, every message sent holds its slot. -/
theorem queue_eq_sent (h : c.position i = some 0) : c.queue = c.sent := by
  have hzero : c.released = 0 := Nat.le_zero.1 (released_le_position (mem_positions h))
  rw [queue, hzero, List.drop_zero]

end BroadcastChannel
