/-
# A connection as a stream

`ClientTransport` as a stream of messages: bytes arrive, time passes and the caller polls.
A poll alternates decoding and reading until one of them yields an item or the socket has
nothing to read; then the server may turn out to have been quiet for too long.  Each call of
the decoder and each read is a step, so that bytes arrive and time passes between them too.

Instants and durations are in one unit.  The ticker does no more than wake the task, and is
left out.
-/
import AsyncStomp.Codec.Basic
import AsyncStomp.Tasks.Runs

namespace AsyncStomp

/-- A framed reader over a `Monitored` socket. -/
structure Reader where
  buffer : Bytes
  /-- The buffer may hold another frame. -/
  readable : Bool
  /-- A read has found the end of the input. -/
  eof : Bool
  /-- An error was yielded, the stream ends here. -/
  errored : Bool
  lastRead : ℕ
deriving DecidableEq, Repr

/-- `Transport`, as far as it is read from. -/
inductive Transport where
  | direct (framed : Reader)
  | pumped (reader : Reader)
deriving DecidableEq, Repr

namespace Transport

/-- The half that does the reading. -/
def reader : Transport → Reader
  | direct framed => framed
  | pumped reader => reader

def setReader : Transport → Reader → Transport
  | direct _, r => direct r
  | pumped _, r => pumped r

/-- `Transport::last_read` -/
def lastRead : Transport → ℕ
  | direct framed => framed.lastRead
  | pumped reader => reader.lastRead

@[simp] lemma reader_setReader (t : Transport) (r : Reader) : (t.setReader r).reader = r := by
  cases t <;> rfl

lemma lastRead_eq (t : Transport) : t.lastRead = t.reader.lastRead := by
  cases t <;> rfl

end Transport

/-- The errors of the stream. -/
inductive StreamError where
  | decode (e : Error)
  /-- "bytes remaining on stream" -/
  | bytesRemaining
  /-- The error of a read. -/
  | read
  /-- "No data from server for {quietFor}, expected a heart-beat every {period}" -/
  | noData (quietFor period : ℕ)
deriving DecidableEq, Repr

/-- The peer's end of the socket. -/
inductive Peer where
  | connected
  | closed
  | failed
deriving DecidableEq, Repr

/-- Where `poll_next` is. -/
inductive Stage where
  /-- Nobody polls. -/
  | idle
  | decoding
  | reading
  /-- The stream has ended, and is not polled any more. -/
  | ended
deriving DecidableEq, Repr

namespace ClientTransport

/-- What happens to a connection. -/
inductive Event where
  | arrived (bs : Bytes)
  | ticked (d : ℕ)
  /-- A read returned these bytes. -/
  | read (bs : Bytes)
  /-- `poll_next` returned an item. -/
  | yielded (r : Except StreamError (Message FromServer))
  /-- `poll_next` returned `Pending`. -/
  | pending
  /-- `poll_next` returned `None`. -/
  | ended
deriving DecidableEq, Repr

end ClientTransport

open ClientTransport in
/-- `ClientTransport`, its socket and the clock. -/
structure ClientTransport where
  codec : ClientCodec
  transport : Transport
  /-- How long the server may stay quiet. -/
  supervise : Option ℕ
  stage : Stage
  /-- What has arrived and was not read yet. -/
  unread : Bytes
  peer : Peer
  clock : ℕ
  log : List Event

namespace ClientTransport

/-! ### The log -/

/-- The bytes that arrived. -/
def arrivedBytes (log : List Event) : Bytes :=
  log.flatMap fun
    | .arrived bs => bs
    | _ => []

/-- The bytes that were read. -/
def readBytes (log : List Event) : Bytes :=
  log.flatMap fun
    | .read bs => bs
    | _ => []

/-- The messages that were yielded. -/
def messages (log : List Event) : List (Message FromServer) :=
  log.filterMap fun
    | .yielded (.ok msg) => some msg
    | _ => none

/-- The time since the last read that returned a byte, with `quiet` on the clock before. -/
def quietFor (quiet : ℕ) (log : List Event) : ℕ :=
  log.foldl (fun quiet ev =>
    match ev with
    | .ticked d => quiet + d
    | .read bs => if bs.isEmpty then quiet else 0
    | _ => quiet) quiet

/-- Errors end the stream, except for that of a quiet server. -/
def endsStream : Event → Bool
  | .yielded (.error (.noData _ _)) => false
  | .yielded (.error _) => true
  | .ended => true
  | _ => false

/-- The log up to the first error or the end of the stream. -/
def beforeEnd (log : List Event) : List Event := log.takeWhile fun ev => !endsStream ev

/-! ### The stream -/

/-- How long the server may stay quiet: twice the negotiated interval, to allow for delays. -/
def tolerance (incoming : Option ℕ) (automatic : Bool) : Option ℕ :=
  (if automatic then incoming else none).map fun period => period * 2

/-- `ClientTransport::new` -/
def new (codec : ClientCodec) (transport : Transport) (incoming : Option ℕ) (automatic : Bool)
    (clock : ℕ) : ClientTransport where
  codec := codec
  transport := transport
  supervise := tolerance incoming automatic
  stage := .idle
  unread := []
  peer := .connected
  clock := clock
  log := []

/-- The connection that `connect` returns: its reader has yielded the CONNECTED, with `leftover`
behind it in the buffer, and has read nothing for `quiet` since. -/
def established (codec : ClientCodec) (beats : Bool) (leftover : Bytes) (incoming : Option ℕ)
    (automatic : Bool) (lastRead quiet : ℕ) : ClientTransport :=
  let r : Reader := ⟨leftover, true, false, false, lastRead⟩
  new codec (if beats then .pumped r else .direct r) incoming automatic (lastRead + quiet)

variable (t : ClientTransport)

def reader : Reader := t.transport.reader

/-- Go on with this reader, at this stage, and record what happened. -/
def advance (r : Reader) (stage : Stage) (events : List Event) : ClientTransport :=
  { t with transport := t.transport.setReader r, stage := stage, log := t.log ++ events }

/-- `poll_server_timeout` -/
def pollServerTimeout : Event :=
  match t.supervise with
  | none => .pending
  | some tolerance =>
      let quietFor := t.clock - t.transport.lastRead
      if tolerance < quietFor then .yielded (.error (.noData quietFor (tolerance / 2)))
      else .pending

/-- `Monitored::poll_read`, where it returns these bytes. -/
def pollRead (bs : Bytes) : Reader :=
  { t.reader with
    buffer := t.reader.buffer ++ bs
    lastRead := if bs.isEmpty then t.reader.lastRead else t.clock }

/-- `poll_next` is called. -/
def pollNext : Option ClientTransport :=
  match t.stage with
  | .idle =>
      -- an error ends the stream
      if t.reader.errored then some (t.advance t.reader .ended [.ended])
      else some (t.advance t.reader (if t.reader.readable then .decoding else .reading) [])
  | _ => none

/-- The decoder is called on the buffer, at the end of the input with `decode_eof`. -/
def decode : Option ClientTransport :=
  match t.stage with
  | .decoding =>
      match t.codec.decode t.reader.buffer with
      | (.ok (some msg), buffer) =>
          some (t.advance { t.reader with buffer := buffer } .idle [.yielded (.ok msg)])
      | (.error e, buffer) =>
          some (t.advance { t.reader with buffer := buffer, errored := true } .idle
            [.yielded (.error (.decode e))])
      | (.ok none, buffer) =>
          let r := { t.reader with buffer := buffer, readable := false }
          if t.reader.eof then
            if buffer.isEmpty then some (t.advance r .ended [.ended])
            else
              some (t.advance { r with errored := true } .idle [.yielded (.error .bytesRemaining)])
          else some (t.advance r .reading [])
  | _ => none

/-- The socket is read, `k + 1` bytes if that many are there. -/
def read (k : ℕ) : Option ClientTransport :=
  match t.stage with
  | .reading =>
      match t.unread, t.peer with
      | b :: bs, _ =>
          let r := { t.pollRead (b :: bs.take k) with eof := false, readable := true }
          some { t.advance r .decoding [.read (b :: bs.take k)] with unread := bs.drop k }
      | [], .closed =>
          if t.reader.eof then some (t.advance t.reader .ended [.read [], .ended])
          else
            let r := { t.pollRead [] with eof := true, readable := true }
            some (t.advance r .decoding [.read []])
      | [], .failed =>
          some (t.advance { t.reader with errored := true } .idle [.yielded (.error .read)])
      | [], .connected => some (t.advance t.reader .idle [t.pollServerTimeout])
  | _ => none

/-! ### Steps -/

/-- What happens next. -/
inductive Action where
  | arrive (bs : Bytes)
  | hangUp (peer : Peer)
  | tick (d : ℕ)
  | pollNext
  | decode
  | read (k : ℕ)

/-- One step, if it is possible. -/
def step : Action → Option ClientTransport
  | .arrive bs =>
      if t.peer = .connected then
        some { t with unread := t.unread ++ bs, log := t.log ++ [.arrived bs] }
      else none
  | .hangUp peer => if t.peer = .connected then some { t with peer := peer } else none
  | .tick d => some { t with clock := t.clock + d, log := t.log ++ [.ticked d] }
  | .pollNext => t.pollNext
  | .decode => t.decode
  | .read k => t.read k

end ClientTransport

end AsyncStomp
