/-
# From a frame to a message

`Frame::to_client_msg` and `Frame::to_server_msg`, with the functions they look headers up
with.  Both read the fields of a message from the headers under fixed keys; a header under
another key becomes an extra header.
-/
import AsyncStomp.Decimal
import AsyncStomp.Frame.Basic
import AsyncStomp.Message
import Mathlib.Data.List.Forall2

namespace AsyncStomp

/-! ### Headers -/

/-- `fetch_header` -/
def fetchHeader (headers : List Header) (key : String) : Option String :=
  (firstValue headers (asBytes key)).bind fun v => fromUtf8 (unescapeHeaderValue v)

/-- `fetch_raw_header` -/
def fetchRawHeader (headers : List Header) (key : String) : Option String :=
  (firstValue headers (asBytes key)).bind fromUtf8

/-- `ok_or_else` with the error of a missing header. -/
def orMissing (key : String) : Option String → Except Error String
  | some v => .ok v
  | none => .error (.missingHeader key)

/-- `expect_header` -/
def expectHeader (headers : List Header) (key : String) : Except Error String :=
  orMissing key (fetchHeader headers key)

/-- `expect_raw_header` -/
def expectRawHeader (headers : List Header) (key : String) : Except Error String :=
  orMissing key (fetchRawHeader headers key)

/-- `header_to_string` -/
def headerToString (key value : Bytes) : Except Error (String × String) :=
  match fromUtf8 key with
  | none => .error .headerNameNotUtf8
  | some k =>
      match fromUtf8 (unescapeHeaderValue value) with
      | none => .error (.headerValueNotUtf8 k)
      | some v => .ok (k, v)

/-- `all_headers` -/
def allHeaders (headers : List Header) : Except Error (List (String × String)) :=
  headers.mapM fun h => headerToString h.1 h.2

/-- The headers under other keys than those expected. -/
def otherHeaders (headers : List Header) (expectedKeys : List String) : List Header :=
  headers.filter fun h => !((expectedKeys.map asBytes).contains h.1)

/-- `optional_headers` -/
def optionalHeaders (headers : List Header) (expectedKeys : List String) :
    Except Error (Option (List (String × String))) := do
  let res ← (otherHeaders headers expectedKeys).mapM fun h => headerToString h.1 h.2
  pure (if res.isEmpty then none else some res)

/-! ### Values -/

/-- A number of a heart-beat: `parse()?`. -/
def heartbeatNumber (s : Bytes) : Except Error UInt32 :=
  match parseU32 s with
  | some v => .ok v
  | none => .error .badNumber

/-- `parse_heartbeat`, on the bytes of the string: the halves in front of and behind the first
comma. -/
def parseHeartbeat (hb : String) : Except Error (UInt32 × UInt32) :=
  match (asBytes hb).dropWhile (· != comma) with
  | [] => .error .badHeartbeat
  | _ :: right => do
      let left ← heartbeatNumber ((asBytes hb).takeWhile (· != comma))
      let right ← heartbeatNumber right
      pure (left, right)

/-- The `ack` header of a SUBSCRIBE frame. -/
def ackMode : Option String → Except Error (Option AckMode)
  | none => .ok none
  | some s =>
      if s = "auto" then .ok (some .auto)
      else if s = "client" then .ok (some .client)
      else if s = "client-individual" then .ok (some .clientIndividual)
      else .error (.invalidAckMode s)

/-! ### Messages from a client -/

/-- The heart-beat of a CONNECT, if it has one. -/
def optionalHeartbeat : Option String → Except Error (Option (UInt32 × UInt32))
  | none => .ok none
  | some hb => (parseHeartbeat hb).map some

/-- The fields of a CONNECT: its headers are not escaped, so they are read as they are. -/
def connectContent (h : List Header) : Except Error (List String × ToServer) := do
  let heartbeat ← optionalHeartbeat (fetchRawHeader h "heart-beat")
  let acceptVersion ← expectRawHeader h "accept-version"
  let host ← expectRawHeader h "host"
  pure (["accept-version", "host", "login", "passcode", "heart-beat"],
    .connect acceptVersion host (fetchRawHeader h "login") (fetchRawHeader h "passcode") heartbeat)

/-- The fields of a SEND. -/
def sendContent (h : List Header) (body : Option Bytes) :
    Except Error (List String × ToServer) := do
  let destination ← expectHeader h "destination"
  let headers ← optionalHeaders h ["destination", "transaction"]
  pure (["destination", "transaction"],
    .send destination (fetchHeader h "transaction") headers body)

/-- The fields of a SUBSCRIBE. -/
def subscribeContent (h : List Header) : Except Error (List String × ToServer) := do
  let destination ← expectHeader h "destination"
  let id ← expectHeader h "id"
  let ack ← ackMode (fetchHeader h "ack")
  pure (["destination", "id", "ack"], .subscribe destination id ack)

/-- The fields of an UNSUBSCRIBE. -/
def unsubscribeContent (h : List Header) : Except Error (List String × ToServer) := do
  let id ← expectHeader h "id"
  pure (["id"], .unsubscribe id)

/-- The fields of an ACK or a NACK. -/
def ackContent (make : String → Option String → ToServer) (h : List Header) :
    Except Error (List String × ToServer) := do
  let id ← expectHeader h "id"
  pure (["id", "transaction"], make id (fetchHeader h "transaction"))

/-- The field of a BEGIN, a COMMIT or an ABORT. -/
def transactionContent (make : String → ToServer) (h : List Header) :
    Except Error (List String × ToServer) := do
  let transaction ← expectHeader h "transaction"
  pure (["transaction"], make transaction)

namespace Frame

/-- Whether the command of a frame is one of the names. -/
def hasCommand (frame : Frame) (names : List String) : Bool :=
  (names.map asBytes).contains frame.command

lemma hasCommand_of_command {frame : Frame} {name : String} (h : frame.command = asBytes name)
    (names : List String) : frame.hasCommand names = names.contains name := by
  rw [hasCommand, h, Bool.eq_iff_iff]
  simp

/-- The content of a frame from a client, and the keys it expects. -/
def clientContent (frame : Frame) : Except Error (List String × ToServer) :=
  let h := frame.headers
  if frame.hasCommand ["STOMP", "CONNECT", "stomp", "connect"] then connectContent h
  else if frame.hasCommand ["DISCONNECT", "disconnect"] then
    pure (["receipt"], .disconnect (fetchHeader h "receipt"))
  else if frame.hasCommand ["SEND", "send"] then sendContent h frame.body
  else if frame.hasCommand ["SUBSCRIBE", "subscribe"] then subscribeContent h
  else if frame.hasCommand ["UNSUBSCRIBE", "unsubscribe"] then unsubscribeContent h
  else if frame.hasCommand ["ACK", "ack"] then ackContent .ack h
  else if frame.hasCommand ["NACK", "nack"] then ackContent .nack h
  else if frame.hasCommand ["BEGIN", "begin"] then transactionContent .begin h
  else if frame.hasCommand ["COMMIT", "commit"] then transactionContent .commit h
  else if frame.hasCommand ["ABORT", "abort"] then transactionContent .abort h
  else .error (.frameNotRecognized frame.command)

/-- `Frame::to_client_msg` -/
def toClientMsg (frame : Frame) : Except Error (Message ToServer) := do
  let (expectKeys, content) ← frame.clientContent
  pure ⟨content, otherHeaders frame.headers expectKeys⟩

end Frame

/-! ### Messages from a server -/

/-- The fields of a CONNECTED: its headers are not escaped either. -/
def connectedContent (h : List Header) : Except Error (List String × FromServer) := do
  let version ← expectRawHeader h "version"
  pure (["version", "session", "server", "heart-beat"],
    .connected version (fetchRawHeader h "session") (fetchRawHeader h "server")
      (fetchRawHeader h "heart-beat"))

/-- The fields of a MESSAGE. -/
def messageContent (h : List Header) (body : Option Bytes) :
    Except Error (List String × FromServer) := do
  let destination ← expectHeader h "destination"
  let messageId ← expectHeader h "message-id"
  let subscription ← expectHeader h "subscription"
  let headers ← allHeaders h
  pure (["destination", "message-id", "subscription", "ack"],
    .message destination messageId subscription (fetchHeader h "ack") headers body)

/-- The fields of a RECEIPT. -/
def receiptContent (h : List Header) : Except Error (List String × FromServer) := do
  let receiptId ← expectHeader h "receipt-id"
  pure (["receipt-id"], .receipt receiptId)

namespace Frame

/-- The content of a frame from a server, and the keys it expects. -/
def serverContent (frame : Frame) : Except Error (List String × FromServer) :=
  let h := frame.headers
  if frame.hasCommand ["CONNECTED", "connected"] then connectedContent h
  else if frame.hasCommand ["MESSAGE", "message"] then messageContent h frame.body
  else if frame.hasCommand ["RECEIPT", "receipt"] then receiptContent h
  else if frame.hasCommand ["ERROR", "error"] then
    pure (["message"], .error (fetchHeader h "message") frame.body)
  else .error (.frameNotRecognized frame.command)

/-- `Frame::to_server_msg` -/
def toServerMsg (frame : Frame) : Except Error (Message FromServer) := do
  let (expectKeys, content) ← frame.serverContent
  pure ⟨content, otherHeaders frame.headers expectKeys⟩

lemma toClientMsg_of_content {frame : Frame} {keys : List String} {content : ToServer}
    (h : frame.clientContent = .ok (keys, content)) :
    frame.toClientMsg = .ok ⟨content, otherHeaders frame.headers keys⟩ := by
  rw [toClientMsg, h]
  rfl

lemma toServerMsg_of_content {frame : Frame} {keys : List String} {content : FromServer}
    (h : frame.serverContent = .ok (keys, content)) :
    frame.toServerMsg = .ok ⟨content, otherHeaders frame.headers keys⟩ := by
  rw [toServerMsg, h]
  rfl

end Frame

/-! ### What the conversions find -/

/-- A computation that succeeds has succeeded step by step. -/
lemma except_bind_eq_ok {ε α β : Type} {x : Except ε α} {f : α → Except ε β} {b : β} :
    x >>= f = .ok b ↔ ∃ a, x = .ok a ∧ f a = .ok b := by
  cases x with
  | error e =>
      constructor
      · rintro ⟨⟩
      · rintro ⟨a, ⟨⟩, -⟩
  | ok a =>
      constructor
      · exact fun h => ⟨a, rfl, h⟩
      · rintro ⟨a', ⟨⟩, h⟩
        exact h

/-- A computation of two parts succeeds where both do. -/
lemma exists_bind_eq_ok {ε α β : Type} {x : Except ε α} {f : α → Except ε β} :
    (∃ b, x >>= f = .ok b) ↔ ∃ a, x = .ok a ∧ ∃ b, f a = .ok b := by
  constructor
  · rintro ⟨b, h⟩
    obtain ⟨a, ha, hb⟩ := except_bind_eq_ok.1 h
    exact ⟨a, ha, b, hb⟩
  · rintro ⟨a, ha, b, hb⟩
    exact ⟨b, except_bind_eq_ok.2 ⟨a, ha, hb⟩⟩

lemma exists_pure_eq_ok {ε α : Type} (a : α) : (∃ b, (pure a : Except ε α) = .ok b) ↔ True :=
  iff_true_intro ⟨a, rfl⟩

/-- A list is converted element by element. -/
lemma mapM_eq_ok_iff {ε α β : Type} {f : α → Except ε β} {xs : List α} {ys : List β} :
    xs.mapM f = .ok ys ↔ List.Forall₂ (fun x y => f x = .ok y) xs ys := by
  induction xs generalizing ys with
  | nil =>
      rw [List.mapM_nil, List.forall₂_nil_left_iff]
      constructor
      · rintro ⟨⟩
        rfl
      · rintro rfl
        rfl
  | cons x xs ih =>
      rw [List.mapM_cons, except_bind_eq_ok, List.forall₂_cons_left_iff]
      constructor
      · rintro ⟨y, hy, h⟩
        obtain ⟨ys', hys, h⟩ := except_bind_eq_ok.1 h
        cases h
        exact ⟨y, ys', hy, ih.1 hys, rfl⟩
      · rintro ⟨y, ys', hy, hys, rfl⟩
        exact ⟨y, hy, except_bind_eq_ok.2 ⟨ys', ih.2 hys, rfl⟩⟩

section Found

variable {h : List Header}

lemma expectHeader_eq_ok_iff {key v : String} :
    expectHeader h key = .ok v ↔ fetchHeader h key = some v := by
  rw [expectHeader]
  cases fetchHeader h key <;> simp [orMissing]

lemma expectHeader_of_fetch {key v : String} (hv : fetchHeader h key = some v) :
    expectHeader h key = .ok v :=
  expectHeader_eq_ok_iff.2 hv

lemma expectRawHeader_of_fetch {key v : String} (hv : fetchRawHeader h key = some v) :
    expectRawHeader h key = .ok v := by
  rw [expectRawHeader, hv, orMissing]

lemma connectContent_eq {acceptVersion host : String} {heartbeat : Option (UInt32 × UInt32)}
    (hbeat : optionalHeartbeat (fetchRawHeader h "heart-beat") = .ok heartbeat)
    (hversion : fetchRawHeader h "accept-version" = some acceptVersion)
    (hhost : fetchRawHeader h "host" = some host) :
    connectContent h = .ok (["accept-version", "host", "login", "passcode", "heart-beat"],
      .connect acceptVersion host (fetchRawHeader h "login") (fetchRawHeader h "passcode")
        heartbeat) := by
  rw [connectContent, hbeat, expectRawHeader_of_fetch hversion, expectRawHeader_of_fetch hhost]
  rfl

lemma sendContent_eq {destination : String} {transaction : Option String}
    (hd : fetchHeader h "destination" = some destination)
    (ht : fetchHeader h "transaction" = transaction) (body : Option Bytes) :
    sendContent h body = (optionalHeaders h ["destination", "transaction"]).map fun headers =>
      (["destination", "transaction"], .send destination transaction headers body) := by
  rw [sendContent, expectHeader_of_fetch hd, ← ht]
  cases optionalHeaders h ["destination", "transaction"] <;> rfl

lemma subscribeContent_eq {destination id : String}
    (hd : fetchHeader h "destination" = some destination) (hid : fetchHeader h "id" = some id) :
    subscribeContent h = (ackMode (fetchHeader h "ack")).map fun ack =>
      (["destination", "id", "ack"], .subscribe destination id ack) := by
  rw [subscribeContent, expectHeader_of_fetch hd, expectHeader_of_fetch hid]
  cases ackMode (fetchHeader h "ack") <;> rfl

lemma unsubscribeContent_eq {id : String} (hid : fetchHeader h "id" = some id) :
    unsubscribeContent h = .ok (["id"], .unsubscribe id) := by
  rw [unsubscribeContent, expectHeader_of_fetch hid]
  rfl

lemma ackContent_eq {id : String} {transaction : Option String}
    (hid : fetchHeader h "id" = some id) (ht : fetchHeader h "transaction" = transaction)
    (make : String → Option String → ToServer) :
    ackContent make h = .ok (["id", "transaction"], make id transaction) := by
  rw [ackContent, expectHeader_of_fetch hid, ← ht]
  rfl

lemma transactionContent_eq {transaction : String}
    (ht : fetchHeader h "transaction" = some transaction) (make : String → ToServer) :
    transactionContent make h = .ok (["transaction"], make transaction) := by
  rw [transactionContent, expectHeader_of_fetch ht]
  rfl

lemma messageContent_eq {destination messageId subscription : String}
    {headers : List (String × String)} (hd : fetchHeader h "destination" = some destination)
    (hid : fetchHeader h "message-id" = some messageId)
    (hs : fetchHeader h "subscription" = some subscription)
    (hall : allHeaders h = .ok headers) (body : Option Bytes) :
    messageContent h body = .ok (["destination", "message-id", "subscription", "ack"],
      .message destination messageId subscription (fetchHeader h "ack") headers body) := by
  rw [messageContent, expectHeader_of_fetch hd, expectHeader_of_fetch hid,
    expectHeader_of_fetch hs, hall]
  rfl

end Found

end AsyncStomp
