/-
# The handshake

`connect` sends the CONNECT, awaits the reply and wires up the connection: directly, or with a
write pump that keeps the session alive.  Which of the two is decided before the reply is there,
from what the client asks for; the intervals follow from the reply.  `properlyWired_of_connect`
says that the wiring keeps what was negotiated.

The socket belongs to the surroundings: they say what became of sending the CONNECT and what each
read returned.
-/
import AsyncStomp.Client.Connector
import AsyncStomp.Client.Pump.Timed
import AsyncStomp.Client.Supervise.Basic
import AsyncStomp.Codec.Input

namespace AsyncStomp

open Tasks

/-- `Connector`, with what `connect` takes from it beside the CONNECT. -/
structure Connecting extends Connector where
  autoHeartbeat : Bool
  maxFrameSize : ℕ
deriving DecidableEq, Repr

/-- What the socket does during the handshake. -/
structure Surroundings (ε : Type) where
  /-- Sending the CONNECT. -/
  sent : Poll (Except ε Unit)
  /-- What the reads return, one by one. -/
  reads : List Bytes
  /-- What the peer does behind them. -/
  peer : Peer

/-- Why `connect` fails. -/
inductive ConnectError (ε : Type) where
  | send (e : ε)
  | stream (e : StreamError)
  | handshake (e : HandshakeError)
deriving DecidableEq, Repr

/-- Who writes to the socket. -/
inductive Wiring where
  | direct
  /-- A pump, with this interval. -/
  | pumped (interval : Option ℕ)
deriving DecidableEq, Repr

/-- What `establish` returns, with what its reader has read and not decoded, and what it has not
read. -/
structure Established where
  wiring : Wiring
  outgoing : Option ℕ
  incoming : Option ℕ
  buffer : Bytes
  unread : List Bytes
deriving DecidableEq, Repr

/-- What `connect` returns. -/
structure Connection extends Established where
  /-- How long the server may stay quiet, and the period of the ticker. -/
  supervise : Option (ℕ × ℕ)
deriving DecidableEq, Repr

namespace ClientCodec

variable (codec : ClientCodec)

/-- `next` of a framed reader: its item, the buffer it leaves and the reads it has not made. -/
def next (peer : Peer) : Bytes → List Bytes →
    Poll (Except StreamError (Option (Message FromServer)) × Bytes × List Bytes)
  | buf, [] =>
      match peer with
      | .connected => .pending
      | .failed => .ready (.error .read, buf, [])
      | .closed =>
          match codec.decode buf with
          | (.ok (some msg), buf) => .ready (.ok (some msg), buf, [])
          | (.ok none, buf) =>
              .ready (if buf.isEmpty then .ok none else .error .bytesRemaining, buf, [])
          | (.error e, buf) => .ready (.error (.decode e), buf, [])
  | buf, c :: cs =>
      match codec.decode (buf ++ c) with
      | (.ok (some msg), buf) => .ready (.ok (some msg), buf, cs)
      | (.ok none, buf) => next peer buf cs
      | (.error e, buf) => .ready (.error (.decode e), buf, cs)

end ClientCodec

/-- `establish`.  Either branch of it sends, reads and negotiates in the same way. -/
def establish {ε : Type} (codec : ClientCodec) (requested : Option (UInt32 × UInt32))
    (beats : Bool) (s : Surroundings ε) : Poll (Except (ConnectError ε) Established) :=
  match s.sent with
  | .pending => .pending
  | .ready (.error e) => .ready (.error (.send e))
  | .ready (.ok _) =>
      match codec.next s.peer [] s.reads with
      | .pending => .pending
      | .ready (.error e, _, _) => .ready (.error (.stream e))
      | .ready (.ok reply, buffer, unread) =>
          match acceptConnected reply requested with
          | .error e => .ready (.error (.handshake e))
          | .ok (outgoing, incoming) =>
              let wiring := if beats then .pumped outgoing else .direct
              .ready (.ok ⟨wiring, outgoing, incoming, buffer, unread⟩)

/-- The supervision that `ClientTransport::new` sets up. -/
def supervise (incoming : Option ℕ) (automatic : Bool) : Option (ℕ × ℕ) :=
  (if automatic then incoming else none).map fun period => (period * 2, period)

/-- The stream is supervised in this way. -/
lemma tolerance_eq (incoming : Option ℕ) (automatic : Bool) :
    ClientTransport.tolerance incoming automatic = (supervise incoming automatic).map Prod.fst := by
  rw [ClientTransport.tolerance, supervise, Option.map_map]
  rfl

namespace Connecting

variable (c : Connecting)

def codec : ClientCodec := ⟨c.maxFrameSize⟩

/-- Whether the connection will beat on its own. -/
def beats : Bool :=
  c.autoHeartbeat && match c.heartbeat with
    | some (offer, _) => decide (0 < offer)
    | none => false

/-- `connect`, once the socket is open. -/
def connect {ε : Type} (s : Surroundings ε) : Poll (Except (ConnectError ε) Connection) :=
  match establish c.codec c.requested c.beats s with
  | .pending => .pending
  | .ready (.error e) => .ready (.error e)
  | .ready (.ok e) => .ready (.ok ⟨e, supervise e.incoming c.autoHeartbeat⟩)

/-- The intervals the CONNECT asks for. -/
def asked : UInt32 × UInt32 := c.heartbeat.getD (0, 0)

end Connecting

/-! ### Beating -/

/-- Some run hands a heart-beat to the socket that the caller did not send. -/
def Wiring.Beats : Wiring → Prop
  | .direct => ∃ (ε : Type) (as : List (Direct.Action ε)) (s : Direct ε),
      run Direct.step (Direct.start ε) as = some s ∧ .beat ∈ handed s.log
  | .pumped interval => ∃ (ch : Mpsc (ℕ × Item)) (ε : Type) (as : List (Pumped.Action ε))
      (s : Pumped ch ε),
      run (Pumped.step interval) (Pumped.start ch ε) as = some s ∧ .beat ∈ handed s.log

/-- With nothing to do for that long, the connection can beat. -/
def Wiring.BeatsAfter : Wiring → ℕ → Prop
  | .direct, _ => False
  | .pumped interval, waited => Timed.BeatsAfter interval waited

lemma beat_not_mem_append {ε : Type} {log evs : List (Event ε)} (h : .beat ∉ handed log)
    (hevs : .beat ∉ handed evs) : .beat ∉ handed (log ++ evs) := by
  rw [handed_append, List.mem_append]
  exact not_or.2 ⟨h, hevs⟩

/-- A connection that writes to its socket itself hands over what the caller sends. -/
lemma not_beats_direct : ¬ Wiring.direct.Beats := by
  rintro ⟨ε, as, s, h, hbeat⟩
  refine run_invariant (I := fun s : Direct ε => .beat ∉ handed s.log) ?_ h List.not_mem_nil hbeat
  intro s a s' hstep hs
  cases a with
  | startSend item =>
      -- the only step that hands an entry over, and that is one of the caller
      cases hstep
      exact beat_not_mem_append hs (by simp [handed])
  | transmit k =>
      cases hstep
      exact hs
  | pollFlush flush =>
      rcases Direct.step_pollFlush hstep with rfl | ⟨r, -, rfl⟩
      · exact hs
      · exact beat_not_mem_append hs List.not_mem_nil
  | pollClose flush shutdown =>
      obtain ⟨-, rfl | ⟨r, -, rfl⟩⟩ := Direct.step_pollClose hstep
      · exact hs
      · exact beat_not_mem_append hs List.not_mem_nil

/-- A pump without an interval hands over what the caller sends. -/
lemma not_beats_pumped_none : ¬ (Wiring.pumped none).Beats := by
  rintro ⟨ch, ε, as, s, h, hbeat⟩
  let I : Pumped ch ε → Prop := fun s => s.Inv ∧ .beat ∉ handed s.log
  have hmove : ∀ s s', Pumped.Move none s s' → I s → I s' := by
    rintro s s' hm ⟨hinv, hs⟩
    refine ⟨hinv.preserve hm, ?_⟩
    cases hm with
    | timeout hphase hinterval => cases hinterval
    | receive => exact beat_not_mem_append hs (by simp [handed])
    | permit | await | flush | closeChannel | dropTransport | leave | transmit => exact hs
    | _ => exact beat_not_mem_append hs List.not_mem_nil
  have href : Refines I (Pumped.step none) (Pumped.Move none) := fun s a s' hI =>
    Pumped.refines_move none s a s' hI.1.toCallOk
  exact (href.run_invariant hmove h ⟨(Pumped.good_start ch ε).inv, List.not_mem_nil⟩).2 hbeat

/-- Without the clock, a beat after some time is a beat. -/
lemma Wiring.BeatsAfter.beats {w : Wiring} {waited : ℕ} (h : w.BeatsAfter waited) : w.Beats := by
  cases w with
  | direct => exact absurd h id
  | pumped interval =>
      obtain ⟨ch, ε, as, t, hrun, -, hsome⟩ := h
      obtain ⟨t', hstep⟩ := Option.isSome_iff_exists.1 hsome
      rcases Timed.step_eq_some hstep with ⟨d, ⟨⟩, -⟩ | ⟨b, conn, ⟨⟩, -, hconn, -⟩
      obtain ⟨-, -, rfl⟩ := Pumped.timeout_eq_some_iff.1 hconn
      refine ⟨ch, ε, Timed.untimed as ++ [.timeout], t.conn.hand .beating .beat, ?_, ?_⟩
      · have hconn₀ : run (Pumped.step interval) (Pumped.start ch ε) (Timed.untimed as) =
            some t.conn := Timed.run_conn hrun
        rw [run_append, hconn₀, Option.bind_some, run_cons, hconn]
        rfl
      · have hlog : (t.conn.hand .beating .beat).log = t.conn.log ++ [.handed .beat] := rfl
        rw [hlog, handed_append]
        exact List.mem_append_right _ (List.mem_singleton_self _)

/-- A pump with an interval can beat once that has passed. -/
lemma beatsAfter_pumped_iff {d waited : ℕ} :
    (Wiring.pumped (some d)).BeatsAfter waited ↔ d ≤ waited := by
  rw [Wiring.BeatsAfter, Timed.beatsAfter_iff]
  constructor
  · rintro ⟨period, ⟨⟩, hle⟩
    exact hle
  · exact fun hle => ⟨d, rfl, hle⟩

/-! ### Reading the reply -/

namespace ClientCodec

variable {codec : ClientCodec}

/-- What `next` does with a message: the reads it made hold the frame of that message behind line
ends, and what came behind the frame is in the buffer. -/
structure TakesMessage (codec : ClientCodec) (read : Bytes) (msg : Message FromServer)
    (buffer : Bytes) : Prop where
  /-- The line end of the frame goes with it if it is there. -/
  kept : ∃ (g : Gap) (w : WireFrame) (behind : Bytes), read = g.bytes ++ (w.bytes ++ behind) ∧
    w.frame.toServerMsg = .ok msg ∧ buffer = dropLineEnding behind
  /-- Whatever comes later, decoding goes on as if the message had not been taken out alone. -/
  drain : ∀ more, codec.drain (read ++ more) = (codec.drain (buffer ++ more)).after [msg]

/-- A message that the decoder finds. -/
lemma takesMessage_of_decode {src rest : Bytes} {msg : Message FromServer}
    (h : codec.decode src = (.ok (some msg), rest)) : codec.TakesMessage src msg rest := by
  refine ⟨?_, drain_of_decode_some h⟩
  obtain ⟨f, rest₀, hparse, hmsg, hrest⟩ := decode_eq_some_iff.1 h
  obtain ⟨w, hw, rfl⟩ := parseThroughNul_eq_ok_iff.1 hparse
  refine ⟨⟨src.takeWhile isEol, fun b hb => List.mem_takeWhile_imp hb⟩, w, rest₀, ?_, hmsg, hrest⟩
  rw [← hw, List.takeWhile_append_dropWhile]

/-- The line ends in front of a frame may be taken off before the frame has arrived. -/
lemma TakesMessage.of_decode_none {src rest more buffer : Bytes} {msg : Message FromServer}
    (hnone : codec.decode src = (.ok none, rest))
    (h : codec.TakesMessage (rest ++ more) msg buffer) :
    codec.TakesMessage (src ++ more) msg buffer := by
  obtain ⟨g, w, behind, hread, hmsg, hbuffer⟩ := h.kept
  refine ⟨⟨⟨src.takeWhile isEol ++ g.bytes, ?_⟩, w, behind, ?_, hmsg, hbuffer⟩, fun ys => ?_⟩
  · intro b hb
    rcases List.mem_append.1 hb with hb | hb
    · exact List.mem_takeWhile_imp hb
    · exact g.eols b hb
  · have hsrc : src.takeWhile isEol ++ rest = src := by
      rw [rest_of_decode_none hnone, List.takeWhile_append_dropWhile]
    rw [List.append_assoc, ← hread, ← List.append_assoc, hsrc]
  · rw [List.append_assoc, drain_of_decode_none hnone, ← List.append_assoc, h.drain]

/-- **`next` loses nothing.**  What has been read behind a message stays in the buffer. -/
theorem next_eq_some {peer : Peer} {buf : Bytes} {reads : List Bytes} {msg : Message FromServer}
    {buffer : Bytes} {unread : List Bytes}
    (h : codec.next peer buf reads = .ready (.ok (some msg), buffer, unread)) :
    ∃ taken, reads = taken ++ unread ∧ codec.TakesMessage (buf ++ taken.flatten) msg buffer := by
  induction reads generalizing buf with
  | nil =>
      cases peer with
      | connected => cases h
      | failed => cases h
      | closed =>
          -- at the end of the input the decoder is called once more
          simp only [next] at h
          rcases hdecode : codec.decode buf with ⟨(e | _ | m), rest⟩
          · rw [hdecode] at h
            cases h
          · rw [hdecode] at h
            by_cases hrest : rest.isEmpty = true <;> simp [hrest] at h
          · rw [hdecode] at h
            cases h
            refine ⟨[], rfl, ?_⟩
            rw [List.flatten_nil, List.append_nil]
            exact takesMessage_of_decode hdecode
  | cons c cs ih =>
      rw [next] at h
      rcases hdecode : codec.decode (buf ++ c) with ⟨(e | _ | m), rest⟩
      · rw [hdecode] at h
        cases h
      · rw [hdecode] at h
        obtain ⟨taken, htaken, hmsg⟩ := ih h
        refine ⟨c :: taken, by rw [htaken, List.cons_append], ?_⟩
        rw [List.flatten_cons, ← List.append_assoc]
        exact .of_decode_none hdecode hmsg
      · rw [hdecode] at h
        cases h
        refine ⟨[c], rfl, ?_⟩
        simpa using takesMessage_of_decode hdecode

end ClientCodec

/-! ### Intervals -/

lemma toNat_max (a b : UInt32) : (max a b).toNat = max a.toNat b.toNat := by
  have hmax : max a b = if a ≤ b then b else a := rfl
  rw [hmax]
  split_ifs with hle
  · exact (max_eq_right (UInt32.le_iff_toNat_le.1 hle)).symm
  · exact (max_eq_left (Nat.le_of_not_ge (UInt32.le_iff_toNat_le.not.1 hle))).symm

/-- A direction is on if neither side declines, with the slower of the two intervals. -/
lemma negotiate_eq_some_iff {sender receiver : UInt32} {d : ℕ} :
    negotiate sender receiver = some d ↔
      sender ≠ 0 ∧ receiver ≠ 0 ∧ d = max sender.toNat receiver.toNat := by
  rw [negotiate, Option.ite_none_right_eq_some, Option.some_inj, toNat_max, eq_comm, and_assoc]

/-- An interval is never zero. -/
lemma pos_of_negotiate {sender receiver : UInt32} {d : ℕ}
    (h : negotiate sender receiver = some d) : 0 < d := by
  obtain ⟨hsender, -, rfl⟩ := negotiate_eq_some_iff.1 h
  have hpos : sender.toNat ≠ 0 := fun hzero => hsender (UInt32.toNat_inj.1 hzero)
  omega

lemma supervise_eq_some_iff {incoming : Option ℕ} {automatic : Bool} {tolerance period : ℕ} :
    supervise incoming automatic = some (tolerance, period) ↔
      automatic = true ∧ incoming = some period ∧ tolerance = 2 * period := by
  cases automatic with
  | false => simp [supervise]
  | true =>
      cases incoming with
      | none => simp [supervise]
      | some d =>
          simp [supervise]
          omega

namespace Connecting

variable {c : Connecting}

/-- It beats on its own where the client offers to, and is not told to leave it to the caller. -/
lemma beats_eq_true_iff : c.beats = true ↔ c.autoHeartbeat = true ∧ c.asked.1 ≠ 0 := by
  rw [beats, asked]
  rcases c.heartbeat with _ | ⟨cx, cy⟩
  · simp
  · simp [UInt32.pos_iff_ne_zero]

/-- What the wiring of a connection keeps of what was asked for and answered.  `cx` and `cy` are the
client's intervals, `sx` and `sy` those of the server. -/
structure ProperlyWired (c : Connecting) (answered : UInt32 × UInt32) (conn : Connection) :
    Prop where
  outgoing_iff : ∀ d, conn.outgoing = some d ↔
    c.asked.1 ≠ 0 ∧ answered.2 ≠ 0 ∧ d = max c.asked.1.toNat answered.2.toNat
  incoming_iff : ∀ d, conn.incoming = some d ↔
    answered.1 ≠ 0 ∧ c.asked.2 ≠ 0 ∧ d = max answered.1.toNat c.asked.2.toNat
  /-- What was promised to the server is kept, with just this interval. -/
  beats : c.autoHeartbeat = true → ∀ d, conn.outgoing = some d →
    conn.wiring = .pumped (some d) ∧ conn.wiring.Beats ∧
      ∀ waited, conn.wiring.BeatsAfter waited ↔ d ≤ waited
  /-- Nothing beats uninvited. -/
  silent : conn.outgoing = none ∨ c.autoHeartbeat = false →
    ¬ conn.wiring.Beats ∧ ∀ waited, ¬ conn.wiring.BeatsAfter waited
  direct : c.autoHeartbeat = false ∨ c.asked.1 = 0 → conn.wiring = .direct
  supervise_iff : ∀ tolerance period, conn.supervise = some (tolerance, period) ↔
    c.autoHeartbeat = true ∧ conn.incoming = some period ∧ tolerance = 2 * period
  /-- This is how the stream of the connection is supervised. -/
  stream : ∀ lastRead quiet, (ClientTransport.established c.codec c.beats conn.buffer conn.incoming
    c.autoHeartbeat lastRead quiet).supervise = conn.supervise.map Prod.fst
  /-- A ticker is never created with a period of zero. -/
  period_pos : ∀ tolerance period, conn.supervise = some (tolerance, period) → 1 ≤ period

/-- The connection that follows from what was asked for and answered. -/
def wired (c : Connecting) (answered : UInt32 × UInt32) (buffer : Bytes) (unread : List Bytes) :
    Connection :=
  let (outgoing, incoming) := intervals c.asked answered
  ⟨⟨if c.beats then .pumped outgoing else .direct, outgoing, incoming, buffer, unread⟩,
    supervise incoming c.autoHeartbeat⟩

lemma wiring_of_beats {answered : UInt32 × UInt32} {buffer : Bytes} {unread : List Bytes}
    (h : c.beats = true) : (c.wired answered buffer unread).wiring =
      .pumped (c.wired answered buffer unread).outgoing := by
  simp only [wired, h, if_true]

lemma wiring_of_not_beats {answered : UInt32 × UInt32} {buffer : Bytes} {unread : List Bytes}
    (h : c.beats = false) : (c.wired answered buffer unread).wiring = .direct := by
  simp only [wired, h, Bool.false_eq_true, if_false]

/-- The decision taken before the reply fits every reply. -/
lemma properlyWired (c : Connecting) (answered : UInt32 × UInt32) (buffer : Bytes)
    (unread : List Bytes) : c.ProperlyWired answered (c.wired answered buffer unread) where
  outgoing_iff d := negotiate_eq_some_iff
  incoming_iff d := negotiate_eq_some_iff
  beats hauto d hd := by
    -- whatever the answer, an interval of zero was not offered
    have hoffer : c.asked.1 ≠ 0 := (negotiate_eq_some_iff.1 hd).1
    have hwiring : (c.wired answered buffer unread).wiring = .pumped (some d) := by
      rw [wiring_of_beats (beats_eq_true_iff.2 ⟨hauto, hoffer⟩), hd]
    rw [hwiring]
    exact ⟨rfl, (beatsAfter_pumped_iff.2 le_rfl).beats, fun waited => beatsAfter_pumped_iff⟩
  silent hsilent := by
    have hbeats : ¬ (c.wired answered buffer unread).wiring.Beats := by
      cases hbeats : c.beats with
      | false =>
          rw [wiring_of_not_beats hbeats]
          exact not_beats_direct
      | true =>
          have hnone : (c.wired answered buffer unread).outgoing = none := by
            refine hsilent.resolve_right fun hauto => ?_
            rw [(beats_eq_true_iff.1 hbeats).1] at hauto
            cases hauto
          rw [wiring_of_beats hbeats, hnone]
          exact not_beats_pumped_none
    exact ⟨hbeats, fun waited hafter => hbeats hafter.beats⟩
  direct hdirect := by
    refine wiring_of_not_beats (Bool.eq_false_iff.2 fun hbeats => ?_)
    obtain ⟨hauto, hoffer⟩ := beats_eq_true_iff.1 hbeats
    rcases hdirect with hoff | hzero
    · rw [hauto] at hoff
      cases hoff
    · exact hoffer hzero
  supervise_iff tolerance period := supervise_eq_some_iff
  stream lastRead quiet := tolerance_eq _ _
  period_pos tolerance period h := pos_of_negotiate (supervise_eq_some_iff.1 h).2.1

/-- What `connect` returns. -/
lemma connect_eq_ok_iff {ε : Type} {s : Surroundings ε} {conn : Connection} :
    c.connect s = .ready (.ok conn) ↔ s.sent = .ready (.ok ()) ∧
      ∃ session server heartbeat answered extra buffer unread,
        c.codec.next s.peer [] s.reads = .ready (.ok (some
          ⟨.connected "1.2" session server heartbeat, extra⟩), buffer, unread) ∧
        optionalHeartbeat heartbeat = .ok answered ∧
        conn = c.wired (answered.getD (0, 0)) buffer unread := by
  constructor
  · intro h
    rw [connect, establish] at h
    rcases hsent : s.sent with _ | (e | ⟨⟩)
    · simp [hsent] at h
    · simp [hsent] at h
    · rcases hnext : c.codec.next s.peer [] s.reads with _ | ⟨(e | reply), buffer, unread⟩
      · simp [hsent, hnext] at h
      · simp [hsent, hnext] at h
      · cases haccept : acceptConnected reply c.requested with
        | error e => simp [hsent, hnext, haccept] at h
        | ok out =>
            simp only [hsent, hnext, haccept] at h
            obtain ⟨session, server, heartbeat, answered, extra, rfl, hanswered, rfl⟩ :=
              acceptConnected_eq_ok_iff.1 haccept
            cases h
            exact ⟨rfl, session, server, heartbeat, answered, extra, buffer, unread, rfl,
              hanswered, rfl⟩
  · rintro ⟨hsent, session, server, heartbeat, answered, extra, buffer, unread, hnext, hanswered,
      rfl⟩
    have haccept : acceptConnected _ c.requested = _ := acceptConnected_eq_ok_iff.2
      ⟨session, server, heartbeat, answered, extra, rfl, hanswered, rfl⟩
    simp only [connect, establish, hsent, hnext, haccept]
    rfl

/-- A pump for the client's own direction only, and the start of a frame left over. -/
example :
    let c : Connecting := ⟨⟨"/", none, none, [], some (10, 30)⟩, true, 1000⟩
    let read := asBytes "CONNECTED\nversion:1.2\nheart-beat:0,20\n\n" ++ [nul, lf] ++ asBytes "REC"
    c.connect (⟨.ready (.ok ()), [read], .connected⟩ : Surroundings Unit) =
      .ready (.ok ⟨⟨.pumped (some 20), some 20, none, asBytes "REC", []⟩, none⟩) := by
  decide +kernel

end Connecting

end AsyncStomp
