/-
# From a message to its frame

`ToServer::to_frame` and `Message::to_frame`.  Every message has the fixed headers of its
variant, in a fixed order and without those it has no value for; a SEND has its own
headers behind them, and the extra headers of the message come last.
-/
import AsyncStomp.Decimal
import AsyncStomp.Frame.Basic
import AsyncStomp.Message

namespace AsyncStomp

/-- `opt_str_to_bytes` -/
def optStrToBytes (s : Option String) : Option Bytes := s.map asBytes

/-- The value of a `heart-beat` header: `format!("{v1},{v2}")`. -/
def heartbeatValue (v : UInt32 × UInt32) : Bytes :=
  decimal v.1.toNat ++ comma :: decimal v.2.toNat

namespace ToServer

/-- The headers a SEND frame is built from, before those without a value are left out. -/
def sendHeaders (destination : String) (transaction : Option String)
    (headers : Option (List (String × String))) (body : Option Bytes) : List HeaderTuple :=
  let hdr := [(asBytes "destination", some (asBytes destination)),
      (asBytes "transaction", optStrToBytes transaction)] ++
    (headers.getD []).map fun kv => (asBytes kv.1, some (asBytes kv.2))
  match body with
  | none => hdr
  | some body =>
      -- a body with NUL bytes can be read back only if the frame says how long it is
      if body.contains nul && !(hdr.any fun h => h.1 == asBytes "content-length") then
        hdr ++ [(asBytes "content-length", some (decimal body.length))]
      else hdr

/-- `ToServer::to_frame` -/
def toFrame : ToServer → Frame
  | connect acceptVersion host login passcode heartbeat =>
      Frame.new (asBytes "CONNECT")
        [(asBytes "accept-version", some (asBytes acceptVersion)),
          (asBytes "host", some (asBytes host)),
          (asBytes "login", optStrToBytes login),
          (asBytes "heart-beat", heartbeat.map heartbeatValue),
          (asBytes "passcode", optStrToBytes passcode)] none
  | disconnect receipt =>
      Frame.new (asBytes "DISCONNECT") [(asBytes "receipt", optStrToBytes receipt)] none
  | subscribe destination id ackMode =>
      Frame.new (asBytes "SUBSCRIBE")
        [(asBytes "destination", some (asBytes destination)),
          (asBytes "id", some (asBytes id)),
          (asBytes "ack", ackMode.map fun mode => asBytes mode.name)] none
  | unsubscribe id =>
      Frame.new (asBytes "UNSUBSCRIBE") [(asBytes "id", some (asBytes id))] none
  | send destination transaction headers body =>
      Frame.new (asBytes "SEND") (sendHeaders destination transaction headers body) body
  | ack id transaction =>
      Frame.new (asBytes "ACK")
        [(asBytes "id", some (asBytes id)), (asBytes "transaction", optStrToBytes transaction)] none
  | nack id transaction =>
      Frame.new (asBytes "NACK")
        [(asBytes "id", some (asBytes id)), (asBytes "transaction", optStrToBytes transaction)] none
  | begin transaction =>
      Frame.new (asBytes "BEGIN") [(asBytes "transaction", some (asBytes transaction))] none
  | commit transaction =>
      Frame.new (asBytes "COMMIT") [(asBytes "transaction", some (asBytes transaction))] none
  | abort transaction =>
      Frame.new (asBytes "ABORT") [(asBytes "transaction", some (asBytes transaction))] none

/-- The command of a message's frame. -/
def command : ToServer → String
  | connect .. => "CONNECT"
  | send .. => "SEND"
  | subscribe .. => "SUBSCRIBE"
  | unsubscribe .. => "UNSUBSCRIBE"
  | ack .. => "ACK"
  | nack .. => "NACK"
  | begin .. => "BEGIN"
  | commit .. => "COMMIT"
  | abort .. => "ABORT"
  | disconnect .. => "DISCONNECT"

/-- The headers a SEND brings along, none for the other messages. -/
def customHeaders : ToServer → List (String × String)
  | send _ _ headers _ => headers.getD []
  | _ => []

/-- The body of a SEND, none for the other messages. -/
def body : ToServer → Option Bytes
  | send _ _ _ body => body
  | _ => none

/-- The headers of the fields of a message, without those that are absent. -/
def typedHeaders : ToServer → List Header
  | send destination transaction _ _ =>
      Frame.withValue [(asBytes "destination", some (asBytes destination)),
        (asBytes "transaction", optStrToBytes transaction)]
  | content => content.toFrame.headers

/-- The header that measures a body with NUL bytes. -/
def lengthHeader : ToServer → List Header
  | send _ _ headers (some body) =>
      if body.contains nul && !((headers.getD []).any fun kv => kv.1 == "content-length") then
        [(asBytes "content-length", decimal body.length)]
      else []
  | _ => []

end ToServer

/-- `Message::to_frame` -/
def Message.toFrame (msg : Message ToServer) : Frame :=
  msg.content.toFrame.addExtraHeaders msg.extraHeaders

/-! ### The parts of a frame -/

namespace ToServer

lemma withValue_custom (l : List (String × String)) :
    Frame.withValue (l.map fun kv => (asBytes kv.1, some (asBytes kv.2))) =
      l.map fun kv => (asBytes kv.1, asBytes kv.2) := by
  induction l with
  | nil => rfl
  | cons kv l ih =>
      rw [Frame.withValue] at ih ⊢
      simp [ih]

/-- No field is written under the name of the measure. -/
lemma any_contentLength (destination : String) (transaction : Option String)
    (l : List (String × String)) :
    ([(asBytes "destination", some (asBytes destination)),
        (asBytes "transaction", optStrToBytes transaction)] ++
      l.map fun kv => (asBytes kv.1, some (asBytes kv.2))).any
        (fun h => h.1 == asBytes "content-length") =
      l.any fun kv => kv.1 == "content-length" := by
  have hfields : ([(asBytes "destination", some (asBytes destination)),
      (asBytes "transaction", optStrToBytes transaction)].any
        fun h => h.1 == asBytes "content-length") = false := by
    simp
  rw [List.any_append, List.any_map, hfields, Bool.false_or]
  congr 1
  funext kv
  simp [Bool.beq_eq_decide_eq]

/-- **The headers of a message's frame**: those of its fields, its own, and the measure of the
body. -/
theorem toFrame_headers (content : ToServer) :
    content.toFrame.headers = content.typedHeaders ++
      content.customHeaders.map (fun kv => (asBytes kv.1, asBytes kv.2)) ++
        content.lengthHeader := by
  cases content with
  | send destination transaction headers body =>
      cases body with
      | none =>
          simp only [toFrame, Frame.new, typedHeaders, customHeaders, lengthHeader, sendHeaders,
            Frame.withValue_append, withValue_custom, List.append_nil]
      | some body =>
          simp only [toFrame, Frame.new, typedHeaders, customHeaders, lengthHeader, sendHeaders,
            any_contentLength]
          by_cases hlen : (body.contains nul &&
              !(headers.getD []).any fun kv => kv.1 == "content-length") = true
          · simp only [if_pos hlen, Frame.withValue_append, withValue_custom]
            rfl
          · simp only [if_neg hlen, Frame.withValue_append, withValue_custom, List.append_nil]
  | _ => simp [typedHeaders, customHeaders, lengthHeader]

@[simp] lemma toFrame_body (content : ToServer) : content.toFrame.body = content.body := by
  cases content <;> rfl

@[simp] lemma toFrame_command (content : ToServer) :
    content.toFrame.command = asBytes content.command := by
  cases content <;> rfl

end ToServer

end AsyncStomp
