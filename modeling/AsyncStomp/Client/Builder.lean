/-
# What the builders build

A `Connector` and a `Subscriber` are configured call by call, with a type that says which of the
required fields are there; of several calls of a kind the last one counts (`eq_configuration`).  A
connection can beat on its own exactly where the configuration offers to, and can report a silent
server exactly where it wants beats from it (`keepsAlive_iff`).  A SUBSCRIBE is read with the
destination, the id and the mode it was built with, and a custom `ack` header sets a mode that is
left out (`received_of_subscribe`).
-/
import AsyncStomp.Client.Opening
import AsyncStomp.Codec.Arrival

namespace AsyncStomp

open PartialInput PartialInput.Parser Tasks

/-- A required field that has not been set yet. -/
structure Unset where
deriving DecidableEq, Repr

/-- `DEFAULT_MAX_FRAME_SIZE` -/
def defaultMaxFrameSize : ℕ := 104857600

/-! ### Connectors -/

/-- `Connector`, while it is configured. -/
structure ConnectorBuilder (S V : Type) where
  server : S
  virtualhost : V
  login : Option String
  passcode : Option String
  headers : List (String × String)
  useTls : Bool
  tlsServerName : Option String
  maxFrameSize : ℕ
  heartbeat : Option (UInt32 × UInt32)
  autoHeartbeat : Bool
deriving DecidableEq, Repr

namespace ConnectorBuilder

/-- `Connector::builder` -/
def builder : ConnectorBuilder Unset Unset where
  server := {}
  virtualhost := {}
  login := none
  passcode := none
  headers := []
  useTls := false
  tlsServerName := none
  maxFrameSize := defaultMaxFrameSize
  heartbeat := none
  autoHeartbeat := true

variable {S V T : Type} (b : ConnectorBuilder S V)

def setServer (server : T) : ConnectorBuilder T V := { b with server := server }

def setVirtualhost (virtualhost : T) : ConnectorBuilder S T := { b with virtualhost := virtualhost }

def setLogin (login : String) : ConnectorBuilder S V := { b with login := some login }

def setPasscode (passcode : String) : ConnectorBuilder S V := { b with passcode := some passcode }

def setHeaders (headers : List (String × String)) : ConnectorBuilder S V :=
  { b with headers := headers }

def setUseTls (useTls : Bool) : ConnectorBuilder S V := { b with useTls := useTls }

def setMaxFrameSize (maxFrameSize : ℕ) : ConnectorBuilder S V :=
  { b with maxFrameSize := maxFrameSize }

def setTlsServerName (tlsServerName : String) : ConnectorBuilder S V :=
  { b with tlsServerName := some tlsServerName }

def setHeartbeat (outgoing incoming : UInt32) : ConnectorBuilder S V :=
  { b with heartbeat := some (outgoing, incoming) }

def setAutoHeartbeat (autoHeartbeat : Bool) : ConnectorBuilder S V :=
  { b with autoHeartbeat := autoHeartbeat }

/-! ### Chains of calls -/

/-- A call that sets a field which may be left out. -/
inductive Setting where
  | login (login : String)
  | passcode (passcode : String)
  | headers (headers : List (String × String))
  | useTls (useTls : Bool)
  | maxFrameSize (maxFrameSize : ℕ)
  | tlsServerName (tlsServerName : String)
  | heartbeat (outgoing incoming : UInt32)
  | autoHeartbeat (autoHeartbeat : Bool)
deriving DecidableEq, Repr

/-- What the call does. -/
def set (b : ConnectorBuilder S V) : Setting → ConnectorBuilder S V
  | .login login => b.setLogin login
  | .passcode passcode => b.setPasscode passcode
  | .headers headers => b.setHeaders headers
  | .useTls useTls => b.setUseTls useTls
  | .maxFrameSize maxFrameSize => b.setMaxFrameSize maxFrameSize
  | .tlsServerName tlsServerName => b.setTlsServerName tlsServerName
  | .heartbeat outgoing incoming => b.setHeartbeat outgoing incoming
  | .autoHeartbeat autoHeartbeat => b.setAutoHeartbeat autoHeartbeat

/-- A chain of calls, with those of the fields that may be left out. -/
inductive Configured : {S V : Type} → ConnectorBuilder S V → List Setting → Prop
  | builder : Configured builder []
  | setServer {S V T : Type} {b : ConnectorBuilder S V} {calls : List Setting} (server : T)
      (h : Configured b calls) : Configured (b.setServer server) calls
  | setVirtualhost {S V T : Type} {b : ConnectorBuilder S V} {calls : List Setting}
      (virtualhost : T) (h : Configured b calls) : Configured (b.setVirtualhost virtualhost) calls
  | set {S V : Type} {b : ConnectorBuilder S V} {calls : List Setting} (call : Setting)
      (h : Configured b calls) : Configured (b.set call) (calls ++ [call])

/-- The value of the last call of a kind. -/
def lastOf {α : Type} (kind : Setting → Option α) (calls : List Setting) : Option α :=
  (calls.filterMap kind).getLast?

lemma lastOf_concat {α : Type} (kind : Setting → Option α) (calls : List Setting)
    (call : Setting) : lastOf kind (calls ++ [call]) = (kind call).or (lastOf kind calls) := by
  rw [lastOf, List.filterMap_append]
  cases hkind : kind call <;> simp [lastOf, hkind]

/-- What `heartbeat` was called with last. -/
def lastHeartbeat (calls : List Setting) : Option (UInt32 × UInt32) :=
  lastOf (fun
    | .heartbeat outgoing incoming => some (outgoing, incoming)
    | _ => none) calls

/-- Whether heart-beats are automatic: they are unless they were switched off last. -/
def lastAuto (calls : List Setting) : Bool :=
  (lastOf (fun
    | .autoHeartbeat autoHeartbeat => some autoHeartbeat
    | _ => none) calls).getD true

/-- The fields that a chain of calls leads to: each as it was set last, or else by default. -/
def configuration (calls : List Setting) (server : S) (virtualhost : V) : ConnectorBuilder S V where
  server := server
  virtualhost := virtualhost
  login := lastOf (fun
    | .login login => some login
    | _ => none) calls
  passcode := lastOf (fun
    | .passcode passcode => some passcode
    | _ => none) calls
  headers := (lastOf (fun
    | .headers headers => some headers
    | _ => none) calls).getD []
  useTls := (lastOf (fun
    | .useTls useTls => some useTls
    | _ => none) calls).getD false
  tlsServerName := lastOf (fun
    | .tlsServerName tlsServerName => some tlsServerName
    | _ => none) calls
  maxFrameSize := (lastOf (fun
    | .maxFrameSize maxFrameSize => some maxFrameSize
    | _ => none) calls).getD defaultMaxFrameSize
  heartbeat := lastHeartbeat calls
  autoHeartbeat := lastAuto calls

lemma set_configuration (calls : List Setting) (call : Setting) (server : S) (virtualhost : V) :
    (configuration calls server virtualhost).set call =
      configuration (calls ++ [call]) server virtualhost := by
  simp only [configuration, lastHeartbeat, lastAuto, lastOf_concat]
  cases call <;> rfl

/-- **The last call of a kind counts**, in whatever order a connector is configured: the other calls
of its kind are overwritten, and those of other kinds change nothing. -/
theorem eq_configuration {b : ConnectorBuilder S V} {calls : List Setting}
    (h : Configured b calls) : b = configuration calls b.server b.virtualhost := by
  have hexists : ∃ server virtualhost, b = configuration calls server virtualhost := by
    induction h with
    | builder => exact ⟨_, _, rfl⟩
    | setServer server _ ih =>
        obtain ⟨_, virtualhost, rfl⟩ := ih
        exact ⟨server, virtualhost, rfl⟩
    | setVirtualhost virtualhost _ ih =>
        obtain ⟨server, _, rfl⟩ := ih
        exact ⟨server, virtualhost, rfl⟩
    | set call _ ih =>
        obtain ⟨server, virtualhost, rfl⟩ := ih
        exact ⟨server, virtualhost, set_configuration _ call server virtualhost⟩
  obtain ⟨server, virtualhost, rfl⟩ := hexists
  rfl

-- a second call overwrites the first
example : (((builder.setHeartbeat 5 5).setAutoHeartbeat false).setHeartbeat 0 7).heartbeat =
    some (0, 7) := rfl

/-! ### Beating and alarms -/

/-- What `connect` has to go by once the socket is open. -/
def connecting (b : ConnectorBuilder S String) : Connecting where
  virtualhost := b.virtualhost
  login := b.login
  passcode := b.passcode
  headers := b.headers
  heartbeat := b.heartbeat
  autoHeartbeat := b.autoHeartbeat
  maxFrameSize := b.maxFrameSize

/-- Some server makes the connection beat on its own. -/
def CanBeat (b : ConnectorBuilder S String) : Prop :=
  ∃ (ε : Type) (s : Surroundings ε) (conn : Connection),
    b.connecting.connect s = .ready (.ok conn) ∧ conn.wiring.Beats

/-- Some server is reported to be silent. -/
def CanAlarm (b : ConnectorBuilder S String) : Prop :=
  ∃ (ε : Type) (s : Surroundings ε) (conn : Connection) (lastRead quiet : ℕ)
    (as : List ClientTransport.Action) (t : ClientTransport) (quietFor period : ℕ),
    b.connecting.connect s = .ready (.ok conn) ∧
      run ClientTransport.step (.established b.connecting.codec b.connecting.beats conn.buffer
        conn.incoming b.connecting.autoHeartbeat lastRead quiet) as = some t ∧
        .yielded (.error (.noData quietFor period)) ∈ t.log

/-- A CONNECTED with a heart-beat as often as a server can offer one. -/
def eagerReply : Bytes := asBytes "CONNECTED\nversion:1.2\nheart-beat:1,1\n\n" ++ [nul]

/-- What is made of it. -/
lemma connect_eagerReply (c : Connecting) (ε : Type) :
    c.connect (⟨.ready (.ok ()), [eagerReply], .connected⟩ : Surroundings ε) =
      .ready (.ok (c.wired (1, 1) [] [])) := by
  have hparse : parseThroughNul (eagerReply.dropWhile isEol) =
      .ok ⟨asBytes "CONNECTED", [(asBytes "version", asBytes "1.2"),
        (asBytes "heart-beat", asBytes "1,1")], none⟩ [] := by
    decide
  have hmsg : Frame.toServerMsg ⟨asBytes "CONNECTED", [(asBytes "version", asBytes "1.2"),
      (asBytes "heart-beat", asBytes "1,1")], none⟩ =
        .ok ⟨.connected "1.2" none none (some "1,1"), []⟩ := by
    decide
  have hdecode : c.codec.decode eagerReply = _ := ClientCodec.decode_of_ok hparse
  rw [hmsg] at hdecode
  refine Connecting.connect_eq_ok_iff.2 ⟨rfl, none, none, some "1,1", some (1, 1), [], [], [], ?_,
    by decide, rfl⟩
  rw [ClientCodec.next, List.nil_append, hdecode]
  rfl

variable {b : ConnectorBuilder S String}

/-- A connection beats where an interval was offered and the beating is not left to the caller. -/
lemma canBeat_iff : b.CanBeat ↔ b.autoHeartbeat = true ∧ b.connecting.asked.1 ≠ 0 := by
  constructor
  · rintro ⟨ε, s, conn, hconn, hbeats⟩
    obtain ⟨-, session, server, heartbeat, answered, extra, buffer, unread, -, -, rfl⟩ :=
      Connecting.connect_eq_ok_iff.1 hconn
    have hwired := b.connecting.properlyWired (answered.getD (0, 0)) buffer unread
    by_contra hoff
    refine (hwired.silent ?_).1 hbeats
    rcases Classical.not_and_iff_not_or_not.1 hoff with hauto | hzero
    · exact Or.inr (Bool.eq_false_iff.2 hauto)
    · rw [Option.eq_none_iff_forall_ne_some]
      exact Or.inl fun d hd => hzero fun h => ((hwired.outgoing_iff d).1 hd).1 h
  · rintro ⟨hauto, hoffer⟩
    have hwired := b.connecting.properlyWired (1, 1) [] []
    exact ⟨Unit, _, _, connect_eagerReply b.connecting Unit, (hwired.beats hauto _
      ((hwired.outgoing_iff _).2 ⟨hoffer, by decide, rfl⟩)).2.1⟩

/-- A poll after a long silence. -/
def silentRun (waited : ℕ) : List ClientTransport.Action :=
  [.tick waited, .pollNext, .decode, .read 0]

lemma run_silentRun (codec : ClientCodec) (beats : Bool) (period : ℕ) :
    ∃ t, run ClientTransport.step (.established codec beats [] (some period) true 0 0)
        (silentRun (period * 2 + 1)) = some t ∧
      .yielded (.error (.noData (period * 2 + 1) period)) ∈ t.log := by
  -- the last step reads nothing, and finds that too much time has passed
  have hlate : ∀ t : ClientTransport, t.supervise = some (period * 2) → t.transport.lastRead = 0 →
      t.clock = period * 2 + 1 →
      t.pollServerTimeout = .yielded (.error (.noData (period * 2 + 1) period)) := by
    intro t hsupervise hlast hclock
    rw [ClientTransport.pollServerTimeout, hsupervise, hlast, hclock]
    simp
  have hclock : 0 + 0 + (period * 2 + 1) = period * 2 + 1 := by omega
  cases beats with
  | false =>
      refine ⟨_, rfl, List.mem_append_right _ (List.mem_singleton.2 ?_)⟩
      exact (hlate _ rfl rfl hclock).symm
  | true =>
      refine ⟨_, rfl, List.mem_append_right _ (List.mem_singleton.2 ?_)⟩
      exact (hlate _ rfl rfl hclock).symm

/-- A silent server is reported where beats were asked for and not left to the caller. -/
lemma canAlarm_iff : b.CanAlarm ↔ b.autoHeartbeat = true ∧ b.connecting.asked.2 ≠ 0 := by
  constructor
  · rintro ⟨ε, s, conn, lastRead, quiet, as, t, quietFor, period, hconn, hrun, hmem⟩
    obtain ⟨-, session, server, heartbeat, answered, extra, buffer, unread, -, -, rfl⟩ :=
      Connecting.connect_eq_ok_iff.1 hconn
    have hwired := b.connecting.properlyWired (answered.getD (0, 0)) buffer unread
    obtain ⟨before, after, hlog⟩ := List.append_of_mem hmem
    have hprefix : before ++ [.yielded (.error (.noData quietFor period))] <+: t.log := by
      rw [hlog]
      exact ⟨after, by simp⟩
    obtain ⟨⟨hauto, hincoming, -, -⟩, -, -⟩ :=
      (Connecting.inv_of_established_run hrun).justified _ _ hprefix
    exact ⟨hauto, ((hwired.incoming_iff period).1 hincoming).2.1⟩
  · rintro ⟨hauto, hwant⟩
    have hwired := b.connecting.properlyWired (1, 1) [] []
    have hincoming := (hwired.incoming_iff _).2 ⟨by decide, hwant, rfl⟩
    obtain ⟨t, hrun, hmem⟩ := run_silentRun b.connecting.codec b.connecting.beats
      (max (1 : UInt32).toNat b.connecting.asked.2.toNat)
    have hautomatic : b.connecting.autoHeartbeat = true := hauto
    rw [← hincoming, ← hautomatic] at hrun
    exact ⟨Unit, _, _, 0, 0, _, t, _, _, connect_eagerReply b.connecting Unit, hrun, hmem⟩

/-- A beat was offered. -/
lemma asked_fst_iff : b.connecting.asked.1 ≠ 0 ↔
    ∃ offer want, b.heartbeat = some (offer, want) ∧ offer ≠ 0 := by
  have hasked : b.connecting.asked = b.heartbeat.getD (0, 0) := rfl
  rw [hasked]
  rcases b.heartbeat with _ | ⟨offer, want⟩ <;> simp

/-- A beat was asked for. -/
lemma asked_snd_iff : b.connecting.asked.2 ≠ 0 ↔
    ∃ offer want, b.heartbeat = some (offer, want) ∧ want ≠ 0 := by
  have hasked : b.connecting.asked = b.heartbeat.getD (0, 0) := rfl
  rw [hasked]
  rcases b.heartbeat with _ | ⟨offer, want⟩ <;> simp

/-- **What keeps a connection alive follows from the configuration.**  Some server makes it beat on
its own if and only if heart-beats are automatic and a beat was offered; some server can be reported
as silent if and only if they are automatic and a beat was asked for. -/
theorem keepsAlive_iff (b : ConnectorBuilder S String) :
    (b.CanBeat ↔ b.autoHeartbeat = true ∧ ∃ offer want, b.heartbeat = some (offer, want) ∧
        offer ≠ 0) ∧
      (b.CanAlarm ↔ b.autoHeartbeat = true ∧ ∃ offer want, b.heartbeat = some (offer, want) ∧
        want ≠ 0) := by
  rw [canBeat_iff, canAlarm_iff, asked_fst_iff, asked_snd_iff]
  exact ⟨Iff.rfl, Iff.rfl⟩

/-- The same, by the calls that the connector was configured with. -/
theorem keepsAlive_of_calls {calls : List Setting} (h : Configured b calls) :
    (b.CanBeat ↔ lastAuto calls = true ∧ ∃ offer want,
        lastHeartbeat calls = some (offer, want) ∧ offer ≠ 0) ∧
      (b.CanAlarm ↔ lastAuto calls = true ∧ ∃ offer want,
        lastHeartbeat calls = some (offer, want) ∧ want ≠ 0) := by
  have hauto : b.autoHeartbeat = lastAuto calls :=
    congrArg ConnectorBuilder.autoHeartbeat (eq_configuration h)
  have hheartbeat : b.heartbeat = lastHeartbeat calls :=
    congrArg ConnectorBuilder.heartbeat (eq_configuration h)
  rw [canBeat_iff, canAlarm_iff, asked_fst_iff, asked_snd_iff, hauto, hheartbeat]
  exact ⟨Iff.rfl, Iff.rfl⟩

end ConnectorBuilder

/-! ### Subscribers -/

/-- `Subscriber` -/
structure Subscriber (S I : Type) where
  destination : S
  id : I
  ack : Option AckMode
  headers : List (String × String)
deriving DecidableEq, Repr

namespace Subscriber

/-- `Subscriber::builder` -/
def builder : Subscriber Unset Unset where
  destination := {}
  id := {}
  ack := none
  headers := []

variable {S I T : Type} (s : Subscriber S I)

def setDestination (destination : T) : Subscriber T I := { s with destination := destination }

def setId (id : T) : Subscriber S T := { s with id := id }

def setAck (ack : AckMode) : Subscriber S I := { s with ack := some ack }

def setHeaders (headers : List (String × String)) : Subscriber S I := { s with headers := headers }

/-- `Subscriber::subscribe` -/
def subscribe (s : Subscriber String String) : Message ToServer :=
  ⟨.subscribe s.destination s.id s.ack, s.headers.map fun kv => (asBytes kv.1, asBytes kv.2)⟩

/-- The mode that a server reads. -/
def readAck (s : Subscriber String String) : Except Error (Option AckMode) :=
  match s.ack with
  | some mode => .ok (some mode)
  | none => ackMode (s.headers.lookup "ack")

/-- The headers that a server reads beside the fields. -/
def readHeaders (s : Subscriber String String) : List (String × String) :=
  s.headers.filter fun kv => !(["destination", "id", "ack"].contains kv.1)

variable {s : Subscriber String String}

/-- The custom headers that are sent. -/
lemma ownHeaders_subscribe : s.subscribe.ownHeaders = (headersOf s.headers).filter fun h =>
    !((s.subscribe.content.toFrame.headers.map Prod.fst).contains h.1) := rfl

/-- A SUBSCRIBE without a mode finds the first custom one. -/
lemma standIn_ack (h : s.ack = none) : s.subscribe.standIn "ack" = s.headers.lookup "ack" := by
  have hfilter : firstValue s.subscribe.ownHeaders (asBytes "ack") =
      firstValue (headersOf s.headers) (asBytes "ack") := by
    refine firstValue_filter fun hd _ hkey => ?_
    rw [hkey, subscribe, h]
    simp [ToServer.toFrame, Frame.new, Frame.withValue]
  rw [Message.standIn, hfilter, firstValue_headersOf_eq]
  cases s.headers.lookup "ack" with
  | none => rfl
  | some v => exact fromUtf8_asBytes v

lemma receivedContent_subscribe : s.subscribe.receivedContent =
    s.readAck.map fun ack => .subscribe s.destination s.id ack := by
  have hstandIn := @standIn_ack s
  obtain ⟨destination, id, ack, headers⟩ := s
  cases ack with
  | some mode => rfl
  | none =>
      rw [readAck, ← hstandIn rfl]
      rfl

/-- The fields are written under three keys. -/
lemma key_of_mem_fields {h : Header} (hh : h ∈ s.subscribe.content.toFrame.headers) :
    h.1 ∈ (["destination", "id", "ack"].map asBytes) := by
  have hmem := Frame.mem_withValue.1 hh
  simp only [List.mem_cons, Prod.mk.injEq, List.not_mem_nil, or_false] at hmem
  rcases hmem with ⟨hkey, -⟩ | ⟨hkey, -⟩ | ⟨hkey, -⟩ <;> simp [hkey]

/-- Custom headers are kept, unless they are under the key of a field. -/
lemma otherHeaders_subscribe :
    otherHeaders s.subscribe.onWire.headers ["destination", "id", "ack"] =
      (headersOf s.readHeaders).map escapeHeader := by
  have hplain : ∀ k ∈ ["destination", "id", "ack"], PlainKey k := by decide
  have hheaders : s.subscribe.toFrame.headers =
      s.subscribe.content.toFrame.headers ++ s.subscribe.ownHeaders := rfl
  have hfields : otherHeaders s.subscribe.content.toFrame.headers ["destination", "id", "ack"] =
      [] := by
    rw [otherHeaders, List.filter_eq_nil_iff]
    intro h hh
    rw [List.contains_iff_mem.2 (key_of_mem_fields hh)]
    exact Bool.false_ne_true
  have hcustom : otherHeaders s.subscribe.ownHeaders ["destination", "id", "ack"] =
      headersOf s.readHeaders := by
    rw [otherHeaders, ownHeaders_subscribe, List.filter_filter, headersOf, headersOf, readHeaders,
      List.filter_map]
    congr 1
    refine List.filter_congr fun kv _ => ?_
    have hkeys : (["destination", "id", "ack"].map asBytes).contains (asBytes kv.1) =
        ["destination", "id", "ack"].contains kv.1 := by
      rw [Bool.eq_iff_iff]
      simp
    simp only [Function.comp_apply, hkeys]
    cases hkey : ["destination", "id", "ack"].contains kv.1 with
    | true => rfl
    | false =>
        -- what is under no key of a field is sent
        rw [Bool.not_false, Bool.true_and, Bool.not_eq_true', ← Bool.not_eq_true,
          List.contains_iff_mem]
        intro hmem
        obtain ⟨h, hh, heq⟩ := List.mem_map.1 hmem
        have hfield := List.contains_iff_mem.2 (key_of_mem_fields hh)
        rw [heq, hkeys, hkey] at hfield
        cases hfield
  rw [Message.onWire, otherHeaders_map_escapeHeader _ hplain, hheaders, otherHeaders,
    List.filter_append, ← otherHeaders, ← otherHeaders, hfields, hcustom, List.nil_append]

/-- **How a SUBSCRIBE is read**, whatever it is built from, as long as its headers have keys and do
not announce a body: as one frame, with its destination and its id, with its mode or else that of
the first custom `ack` header, which may turn out to be none, and with its other headers. -/
theorem received_of_subscribe (s : Subscriber String String)
    (hheaders : ∀ kv ∈ s.headers, kv.1 ≠ "" ∧ kv.1 ≠ "content-length") :
    ∃ f, parseFrame (encode (.message s.subscribe) []) = .ok f [] ∧
      f.toClientMsg = s.readAck.map fun ack =>
        ⟨.subscribe s.destination s.id ack, (headersOf s.readHeaders).map escapeHeader⟩ := by
  have hkeys : ∀ h ∈ s.subscribe.extraHeaders, h.1 ≠ [] ∧ h.1 ≠ asBytes "content-length" := by
    intro h hh
    obtain ⟨kv, hkv, rfl⟩ := List.mem_map.1 hh
    obtain ⟨hne, hlength⟩ := hheaders kv hkv
    have hempty : asBytes "" = [] := rfl
    rw [← hempty]
    exact ⟨fun h => hne (asBytes_inj.1 h), fun h => hlength (asBytes_inj.1 h)⟩
  have henc : s.subscribe.Encodable :=
    ⟨rfl, nofun, fun h hh => (hkeys h hh).1, nofun, nofun, fun h hh heq =>
      absurd heq (hkeys h hh).2⟩
  have hcontent := Message.clientContent_onWire henc.content
  refine ⟨s.subscribe.onWire, henc.parseFrame_encode, ?_⟩
  rw [Frame.toClientMsg, hcontent, receivedContent_subscribe]
  cases s.readAck with
  | error e => rfl
  | ok ack => exact congrArg (fun hs => Except.ok (Message.mk _ hs)) otherHeaders_subscribe

theorem received_of_subscribe_noSuchMode :
    let s := ((builder.setDestination "/queue/a").setId "1").setHeaders
      [("ack", "later"), ("a:b", "c\nd")]
    ∃ f, parseFrame (encode (.message s.subscribe) []) = .ok f [] ∧
      f.toClientMsg = .error (.invalidAckMode "later") :=
  received_of_subscribe _ (by decide)

-- a mode that is set is not looked for
example : (((builder.setDestination "/queue/a").setId "1").setAck .client).readAck =
    .ok (some .client) := rfl

end Subscriber

end AsyncStomp
