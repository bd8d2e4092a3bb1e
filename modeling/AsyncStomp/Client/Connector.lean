/-
# Opening a connection

What a `Connector` sends as its CONNECT and what it makes of the reply.  The heart-beat it
asks for travels twice: in the CONNECT, for the server, and as `requested`, for
`accept_connected` to negotiate the reply against.
-/
import AsyncStomp.Codec.Basic

namespace AsyncStomp

/-- `Connector`, as far as the CONNECT is made from it. -/
structure Connector where
  virtualhost : String
  login : Option String
  passcode : Option String
  headers : List (String × String)
  heartbeat : Option (UInt32 × UInt32)
deriving DecidableEq, Repr

/-- Why a handshake fails once the reply is there. -/
inductive HandshakeError where
  /-- "unexpected reply: {reply}" -/
  | unexpectedReply (reply : Option (Message FromServer))
  /-- "server negotiated STOMP {version}, this client speaks 1.2" -/
  | otherVersion (version : String)
  /-- The error of `parse_heartbeat`. -/
  | heartbeat (e : Error)
deriving DecidableEq, Repr

/-- `negotiate`: the interval of one direction, in milliseconds. -/
def negotiate (sender receiver : UInt32) : Option ℕ :=
  if sender ≠ 0 ∧ receiver ≠ 0 then some (max sender receiver).toNat else none

/-- `accept_connected`: the intervals of both directions, `(outgoing, incoming)`. -/
def acceptConnected (reply : Option (Message FromServer)) (requested : Option (UInt32 × UInt32)) :
    Except HandshakeError (Option ℕ × Option ℕ) :=
  match reply.map Message.content with
  | some (.connected version _ _ heartbeat) =>
      if version ≠ "1.2" then .error (.otherVersion version)
      else
        let (cx, cy) := requested.getD (0, 0)
        match optionalHeartbeat heartbeat with
        | .error e => .error (.heartbeat e)
        | .ok answered =>
            -- without a heart-beat header the server wants none in either direction
            let (sx, sy) := answered.getD (0, 0)
            .ok (negotiate cx sy, negotiate sx cy)
  | _ => .error (.unexpectedReply reply)

namespace Connector

variable (c : Connector)

/-- The custom headers in binary form. -/
def extraHeaders : List Header := c.headers.map fun kv => (asBytes kv.1, asBytes kv.2)

/-- `Connector::msg` -/
def msg : Message ToServer :=
  ⟨.connect "1.2" c.virtualhost c.login c.passcode c.heartbeat, c.extraHeaders⟩

/-- What `connect` hands to `establish` beside the CONNECT. -/
def requested : Option (UInt32 × UInt32) := c.heartbeat

/-- The bytes `connect` writes first. -/
def connectBytes : Bytes := encode (.message c.msg) []

end Connector

/-- The intervals that follow from what was asked for and what was answered, `(outgoing,
incoming)` as the client sees them. -/
def intervals (asked answered : UInt32 × UInt32) : Option ℕ × Option ℕ :=
  (negotiate asked.1 answered.2, negotiate answered.1 asked.2)

/-- **What the client settles on** are the intervals of its own request and the server's
answer. -/
theorem acceptConnected_eq_ok_iff {reply : Option (Message FromServer)}
    {requested : Option (UInt32 × UInt32)} {out : Option ℕ × Option ℕ} :
    acceptConnected reply requested = .ok out ↔
      ∃ session server heartbeat answered extra,
        reply = some ⟨.connected "1.2" session server heartbeat, extra⟩ ∧
          optionalHeartbeat heartbeat = .ok answered ∧
            out = intervals (requested.getD (0, 0)) (answered.getD (0, 0)) := by
  constructor
  · intro h
    rcases reply with _ | ⟨content, extra⟩
    · cases h
    · cases content with
      | connected version session server heartbeat =>
          by_cases hversion : version = "1.2"
          · subst hversion
            cases hhb : optionalHeartbeat heartbeat with
            | error e => simp [acceptConnected, hhb] at h
            | ok answered =>
                refine ⟨session, server, heartbeat, answered, extra, rfl, hhb, ?_⟩
                simpa [acceptConnected, hhb, intervals] using h.symm
          · simp [acceptConnected, hversion] at h
      | message => cases h
      | receipt => cases h
      | error => cases h
  · rintro ⟨session, server, heartbeat, answered, extra, rfl, hhb, rfl⟩
    simp [acceptConnected, hhb, intervals]

end AsyncStomp
