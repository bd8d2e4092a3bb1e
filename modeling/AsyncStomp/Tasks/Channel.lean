/-
# Channels between tasks

A channel with one sender and one receiver, and a channel that carries one value once.
`Mpsc` is a channel as its users rely on it: operations, what they do to the messages in
it, and that an empty channel is never full.  `Mpsc.bounded` is such a channel.
-/
import AsyncStomp.Tasks.Runs

namespace Tasks

/-- Why a message could not be sent. -/
inductive SendError where
  | full
  | disconnected
deriving DecidableEq, Repr

/-- A channel with one sender.  Its state is abstract, `queue` is what has been sent and not
received yet. -/
structure Mpsc (α : Type) where
  State : Type
  new : State
  queue : State → List α
  isOpen : State → Bool
  /-- Whether the sender may send: an error if the channel is closed. -/
  pollReady : State → Poll (Except SendError Unit)
  startSend : State → α → Except SendError State
  /-- The next message, or `none` at the end of a closed channel. -/
  next : State → Poll (Option (α × State))
  closeChannel : State → State
  dropReceiver : State → State
  queue_new : queue new = []
  isOpen_new : isOpen new = true
  pollReady_error : ∀ {s e}, pollReady s = .ready (.error e) → isOpen s = false
  startSend_ok : ∀ {s a s'}, startSend s a = .ok s' →
    isOpen s = true ∧ queue s' = queue s ++ [a] ∧ isOpen s' = true
  startSend_full : ∀ {s a}, startSend s a = .error .full → queue s ≠ []
  startSend_disconnected : ∀ {s a}, startSend s a = .error .disconnected → isOpen s = false
  next_some : ∀ {s a s'}, next s = .ready (some (a, s')) →
    queue s = a :: queue s' ∧ isOpen s' = isOpen s
  next_none : ∀ {s}, next s = .ready none → queue s = [] ∧ isOpen s = false
  next_pending : ∀ {s}, next s = .pending → queue s = [] ∧ isOpen s = true
  queue_closeChannel : ∀ s, queue (closeChannel s) = queue s
  isOpen_closeChannel : ∀ s, isOpen (closeChannel s) = false
  queue_dropReceiver : ∀ s, queue (dropReceiver s) = []
  isOpen_dropReceiver : ∀ s, isOpen (dropReceiver s) = false

namespace Mpsc

/-- The state of a bounded channel. -/
structure Bounded (α : Type) where
  queue : List α
  isOpen : Bool
  /-- The sender has filled the channel beyond its buffer and waits for the receiver. -/
  parked : Bool
  parked_ne : parked = true → queue ≠ []
deriving DecidableEq

/-- A bounded channel: the sender may send once more than the buffer holds, and is parked from
then on until a message is received. -/
def bounded (α : Type) (buffer : ℕ) : Mpsc α where
  State := Bounded α
  new := ⟨[], true, false, by simp⟩
  queue := Bounded.queue
  isOpen := Bounded.isOpen
  pollReady s :=
    if s.isOpen = false then .ready (.error .disconnected)
    else if s.parked then .pending else .ready (.ok ())
  startSend s a :=
    if s.parked then .error .full
    else if s.isOpen = false then .error .disconnected
    else .ok ⟨s.queue ++ [a], true, decide (buffer < s.queue.length + 1), by simp⟩
  next s :=
    match s.queue with
    | a :: queue => .ready (some (a, ⟨queue, s.isOpen, false, by simp⟩))
    | [] => if s.isOpen then .pending else .ready none
  closeChannel s := { s with isOpen := false }
  dropReceiver _ := ⟨[], false, false, by simp⟩
  queue_new := rfl
  isOpen_new := rfl
  pollReady_error {s e} h := by
    by_cases hopen : s.isOpen = false
    · exact hopen
    · rw [if_neg hopen] at h
      by_cases hparked : s.parked = true <;> simp [hparked] at h
  startSend_ok {s a s'} h := by
    by_cases hparked : s.parked = true
    · simp [hparked] at h
    · by_cases hopen : s.isOpen = false
      · simp [hparked, hopen] at h
      · rw [if_neg hparked, if_neg hopen] at h
        cases h
        exact ⟨by simpa using hopen, rfl, rfl⟩
  startSend_full {s a} h := by
    by_cases hparked : s.parked = true
    · exact s.parked_ne hparked
    · by_cases hopen : s.isOpen = false <;> simp [hparked, hopen] at h
  startSend_disconnected {s a} h := by
    by_cases hparked : s.parked = true
    · simp [hparked] at h
    · by_cases hopen : s.isOpen = false
      · exact hopen
      · simp [hparked, hopen] at h
  next_some {s a s'} h := by
    cases hqueue : s.queue with
    | nil => by_cases hopen : s.isOpen = true <;> simp [hqueue, hopen] at h
    | cons b queue =>
        simp only [hqueue] at h
        cases h
        exact ⟨rfl, rfl⟩
  next_none {s} h := by
    cases hqueue : s.queue with
    | nil => by_cases hopen : s.isOpen = true <;> simp_all
    | cons b queue => simp [hqueue] at h
  next_pending {s} h := by
    cases hqueue : s.queue with
    | nil => by_cases hopen : s.isOpen = true <;> simp_all
    | cons b queue => simp [hqueue] at h
  queue_closeChannel _ := rfl
  isOpen_closeChannel _ := rfl
  queue_dropReceiver _ := rfl
  isOpen_dropReceiver _ := rfl

end Mpsc

/-- A channel for one value: open, with its value, or given up by the sender. -/
inductive Oneshot (α : Type) where
  | waiting
  | sent (a : α)
  | cancelled
deriving DecidableEq, Repr

end Tasks
