/-
# A connection with a write pump

The caller and `write_pump` as two tasks over a shared state.  The caller polls the sink,
or awaits the future of a `send`, a `feed` or a `send_heartbeat`; the pump takes items from
the channel, writes them and reports what came of each on its oneshot.  Polling an answered
oneshot commutes with whatever the pump does, so that an operation of the sink is one step,
except for the gap between `poll_ready` and `start_send`.

The writer and the clock belong to the surroundings: an action of the pump says how far the
writer got and what it returned, and that the interval has elapsed.
-/
import AsyncStomp.Codec.Basic
import AsyncStomp.Tasks.Channel

namespace AsyncStomp

open Tasks

/-- What the pump hands to the writer: a heart-beat of its own, or an item of the caller under
the number it was accepted with. -/
inductive Entry where
  | beat
  | own (n : ℕ) (item : Item)
deriving DecidableEq, Repr

/-- What is encoded for an entry. -/
def Entry.toItem : Entry → Item
  | .beat => .heartbeat
  | .own _ item => item

/-- The item of the caller that an entry carries. -/
def Entry.ownItem : Entry → Option (ℕ × Item)
  | .beat => none
  | .own n item => some (n, item)

/-- The errors of the sink: one of the writer, or "Stomp connection closed". -/
inductive SinkError (ε : Type) where
  | writer (e : ε)
  | closed
deriving DecidableEq, Repr

/-- What is reported of an item. -/
abbrev Report (ε : Type) := Except (SinkError ε) Unit

/-- The operation that an answer goes to. -/
inductive Op where
  | pollReady
  | startSend
  | pollFlush
  | pollClose
  | future
deriving DecidableEq, Repr

/-- What happens on a connection, as far as it is recorded. -/
inductive Event (ε : Type) where
  /-- `start_send` put the item into the channel. -/
  | accepted (n : ℕ) (item : Item)
  /-- `start_send` could not. -/
  | refused (e : SendError)
  /-- The pump called `writer.send`. -/
  | handed (e : Entry)
  /-- `writer.send` returned. -/
  | finished (e : Entry) (r : Except ε Unit)
  /-- The pending oneshot was taken, with this report. -/
  | settled (n : ℕ) (r : Report ε)
  /-- An operation, or the future that the caller awaits, returned. -/
  | answered (op : Op) (r : Report ε)
  /-- The future of a `send` or a `send_heartbeat` returned `Ok` for its item. -/
  | sent (n : ℕ) (item : Item)
  /-- The writer was closed, and the pump, where there is one, is gone. -/
  | shutDown (r : Except ε Unit)

/-- Where the pump is. -/
inductive Phase where
  /-- It awaits `rx.next()`. -/
  | receiving
  | writing (n : ℕ) (item : Item)
  | beating
  /-- It has left its loop and closes the writer; the receiver is still there. -/
  | closing
  | exited
deriving DecidableEq, Repr

/-- The future the caller awaits.  With `flush` it is that of a `send` or a `send_heartbeat`,
without that of a `feed`. -/
inductive Call where
  | none
  /-- It awaits `poll_ready`. -/
  | readying (flush : Bool) (item : Item)
  /-- `poll_ready` has succeeded, `start_send` comes next. -/
  | starting (flush : Bool) (item : Item)
  /-- It awaits `poll_flush`. -/
  | flushing (n : ℕ) (item : Item)
deriving DecidableEq, Repr

/-- A connection with a write pump. -/
structure Pumped (ch : Mpsc (ℕ × Item)) (ε : Type) where
  /-- The oneshot whose report is still to be taken, by the number of its item. -/
  pending : Option ℕ
  channel : ch.State
  oneshots : ℕ → Oneshot (Except ε Unit)
  call : Call
  /-- A `poll_ready` has succeeded since the last `start_send`. -/
  ready : Bool
  /-- The caller has dropped the transport. -/
  dropped : Bool
  phase : Phase
  /-- What has been encoded and not written to the socket. -/
  buffer : Bytes
  /-- What has been written to the socket. -/
  wire : Bytes
  log : List (Event ε)

/-! ### The log -/

section Log

variable {ε : Type}

/-- The items that were accepted. -/
def accepted (log : List (Event ε)) : List (ℕ × Item) :=
  log.filterMap fun
    | .accepted n item => some (n, item)
    | _ => none

/-- What was handed to the writer. -/
def handed (log : List (Event ε)) : List Entry :=
  log.filterMap fun
    | .handed e => some e
    | _ => none

/-- What the writer has written and flushed. -/
def written (log : List (Event ε)) : List Entry :=
  log.filterMap fun
    | .finished e (.ok _) => some e
    | _ => none

/-- What the writer returned for items of the caller. -/
def results (log : List (Event ε)) : List (ℕ × Except ε Unit) :=
  log.filterMap fun
    | .finished (.own n _) r => some (n, r)
    | _ => none

/-- What was reported of the items. -/
def settled (log : List (Event ε)) : List (ℕ × Report ε) :=
  log.filterMap fun
    | .settled n r => some (n, r)
    | _ => none

/-- The items of the caller among what was handed to the writer. -/
def handedItems (log : List (Event ε)) : List (ℕ × Item) := (handed log).filterMap Entry.ownItem

end Log

/-- The report in an answered oneshot. -/
def report {ε : Type} : Oneshot (Except ε Unit) → Option (Report ε)
  | .waiting => none
  | .sent r => some (r.mapError .writer)
  -- the pump is gone, and so is the socket
  | .cancelled => some (.error .closed)

namespace Pumped

variable {ch : Mpsc (ℕ × Item)} {ε : Type}

/-- `establish`, once the server has accepted the connection. -/
def start (ch : Mpsc (ℕ × Item)) (ε : Type) : Pumped ch ε where
  pending := none
  channel := ch.new
  oneshots := fun _ => .waiting
  call := .none
  ready := false
  dropped := false
  phase := .receiving
  buffer := []
  wire := []
  log := []

/-- Record what happened. -/
def note (s : Pumped ch ε) (events : List (Event ε)) : Pumped ch ε :=
  { s with log := s.log ++ events }

/-- The number of the next item. -/
def fresh (s : Pumped ch ε) : ℕ := (accepted s.log).length

/-! ### The caller's half -/

/-- `Pump::poll_flush` -/
def pollFlush (s : Pumped ch ε) : Poll (Report ε) × Pumped ch ε :=
  match s.pending with
  | none => (.ready (.ok ()), s)
  | some n =>
      match report (s.oneshots n) with
      | none => (.pending, s)
      | some r => (.ready r, { s with pending := none }.note [.settled n r])

/-- `Pump::poll_ready` -/
def pollReady (s : Pumped ch ε) : Poll (Report ε) × Pumped ch ε :=
  match s.pollFlush with
  | (.ready (.ok ()), s) =>
      match ch.pollReady s.channel with
      | .pending => (.pending, s)
      | .ready (.error _) => (.ready (.error .closed), s)
      | .ready (.ok ()) => (.ready (.ok ()), { s with ready := true })
  | unsettled => unsettled

/-- `Pump::start_send` -/
def startSend (s : Pumped ch ε) (item : Item) : Report ε × Pumped ch ε :=
  match ch.startSend s.channel (s.fresh, item) with
  | .error e => (.error .closed, { s with ready := false }.note [.refused e])
  | .ok channel =>
      (.ok (), { s with ready := false, channel := channel, pending := some s.fresh }.note
        [.accepted s.fresh item])

/-- `poll_close` of the sink. -/
def pollClose (s : Pumped ch ε) : Poll (Report ε) × Pumped ch ε :=
  match s.pollFlush with
  | (.ready (.ok ()), s) =>
      -- the pump sees the end of the channel and shuts the socket down
      (.ready (.ok ()), { s with channel := ch.closeChannel s.channel })
  | unsettled => unsettled

/-- Record the answer of an operation. -/
def answer (op : Op) : Poll (Report ε) × Pumped ch ε → Pumped ch ε
  | (.pending, s) => s
  | (.ready r, s) => s.note [.answered op r]

/-- One poll of the future the caller awaits. -/
def pollCall (s : Pumped ch ε) : Option (Pumped ch ε) :=
  match s.call with
  | .none => none
  | .readying flush item =>
      match s.pollReady with
      | (.pending, s) => some s
      | (.ready (.error e), s) =>
          some ({ s with call := .none }.note [.answered .future (.error e)])
      | (.ready (.ok ()), s) => some { s with call := .starting flush item }
  | .starting flush item =>
      match s.startSend item with
      | (.error e, s) => some ({ s with call := .none }.note [.answered .future (.error e)])
      | (.ok (), s') =>
          if flush then some { s' with call := .flushing s.fresh item }
          else some ({ s' with call := .none }.note [.answered .future (.ok ())])
  | .flushing n item =>
      match s.pollFlush with
      | (.pending, s) => some s
      | (.ready (.error e), s) =>
          some ({ s with call := .none }.note [.answered .future (.error e)])
      | (.ready (.ok ()), s) =>
          some ({ s with call := .none }.note [.answered .future (.ok ()), .sent n item])

/-- The caller may call the sink: it has the transport and awaits no future that borrows it. -/
def Idle (s : Pumped ch ε) : Prop := s.dropped = false ∧ s.call = .none

instance (s : Pumped ch ε) : Decidable s.Idle :=
  inferInstanceAs (Decidable (s.dropped = false ∧ s.call = .none))

/-! ### The pump -/

/-- The oneshots when the messages in the channel are dropped. -/
def cancelQueued (queue : List (ℕ × Item)) (oneshots : ℕ → Oneshot (Except ε Unit)) (n : ℕ) :
    Oneshot (Except ε Unit) :=
  if n ∈ queue.map Prod.fst then .cancelled else oneshots n

/-- The writer is called for an entry. -/
def hand (s : Pumped ch ε) (phase : Phase) (e : Entry) : Pumped ch ε :=
  { s with phase := phase, buffer := encode e.toItem s.buffer }.note [.handed e]

/-- The loop of `write_pump` goes on where the pump waits at the channel. -/
def receive (s : Pumped ch ε) : Option (Pumped ch ε) :=
  match s.phase, ch.next s.channel with
  | .receiving, .ready (some ((n, item), channel)) =>
      some ({ s with channel := channel }.hand (.writing n item) (.own n item))
  -- every sender was dropped: the transport is gone
  | .receiving, .ready none => some { s with phase := .closing }
  | _, _ => none

/-- `timeout` gives up on the channel. -/
def timeout (interval : Option ℕ) (s : Pumped ch ε) : Option (Pumped ch ε) :=
  match s.phase, interval with
  | .receiving, some _ => some (s.hand .beating .beat)
  | _, _ => none

/-- The writer gets the next bytes through to the socket. -/
def transmit (s : Pumped ch ε) (k : ℕ) : Option (Pumped ch ε) :=
  match s.phase with
  | .receiving => none
  | .exited => none
  | _ => some { s with wire := s.wire ++ s.buffer.take k, buffer := s.buffer.drop k }

/-- `writer.send` can return: `Ok` once everything is written and flushed, an error at any
time. -/
def MayReturn (s : Pumped ch ε) : Except ε Unit → Prop
  | .ok _ => s.buffer = []
  | .error _ => True

instance (s : Pumped ch ε) (r : Except ε Unit) : Decidable (s.MayReturn r) :=
  match r with
  | .ok _ => inferInstanceAs (Decidable (s.buffer = []))
  | .error _ => inferInstanceAs (Decidable True)

/-- After a failure `write_pump` leaves its loop. -/
def afterSend : Except ε Unit → Phase
  | .ok _ => .receiving
  | .error _ => .closing

/-- `writer.send` returns. -/
def finish (s : Pumped ch ε) (r : Except ε Unit) : Option (Pumped ch ε) :=
  if s.MayReturn r then
    match s.phase with
    | .writing n item =>
        some ({ s with
          phase := afterSend r
          oneshots := Function.update s.oneshots n (.sent r) }.note [.finished (.own n item) r])
    | .beating => some ({ s with phase := afterSend r }.note [.finished .beat r])
    | _ => none
  else none

/-- The writer is closed, and the pump ends and drops the receiver. -/
def shutDown (s : Pumped ch ε) (r : Except ε Unit) : Option (Pumped ch ε) :=
  match s.phase with
  | .closing =>
      some ({ s with
        phase := .exited
        channel := ch.dropReceiver s.channel
        oneshots := cancelQueued (ch.queue s.channel) s.oneshots }.note [.shutDown r])
  | _ => none

/-! ### Steps -/

/-- What the tasks do next. -/
inductive Action (ε : Type) where
  | pollReady
  | startSend (item : Item)
  | pollFlush
  | pollClose
  /-- The caller calls `send` or `send_heartbeat`, or without `flush` `feed`. -/
  | call (flush : Bool) (item : Item)
  | pollCall
  | dropCall
  | dropTransport
  | receive
  | timeout
  | transmit (k : ℕ)
  | finish (r : Except ε Unit)
  | shutDown (r : Except ε Unit)

/-- One step of one of the tasks, if it is possible. -/
def step (interval : Option ℕ) (s : Pumped ch ε) : Action ε → Option (Pumped ch ε)
  | .pollReady => if s.Idle then some (answer .pollReady s.pollReady) else none
  | .startSend item =>
      -- only after a successful `poll_ready`
      if s.Idle ∧ s.ready = true then
        some (answer .startSend ((s.startSend item).map .ready id))
      else none
  | .pollFlush => if s.Idle then some (answer .pollFlush s.pollFlush) else none
  | .pollClose => if s.Idle then some (answer .pollClose s.pollClose) else none
  | .call flush item => if s.Idle then some { s with call := .readying flush item } else none
  | .pollCall => s.pollCall
  | .dropCall =>
      match s.call with
      | .readying _ _ => some { s with call := .none }
      | .flushing _ _ => some { s with call := .none }
      | _ => none
  | .dropTransport =>
      if s.Idle then
        some { s with dropped := true, channel := ch.closeChannel s.channel }
      else none
  | .receive => s.receive
  | .timeout => s.timeout interval
  | .transmit k => s.transmit k
  | .finish r => s.finish r
  | .shutDown r => s.shutDown r

end Pumped

end AsyncStomp
