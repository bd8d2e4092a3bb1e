/-
# Messages

What the client sends and receives: the messages of `lib.rs`, and the errors that
converting and decoding them ends in.
-/
import AsyncStomp.Bytes

namespace AsyncStomp

/-- Subscription acknowledgment modes. -/
inductive AckMode where
  | auto
  | client
  | clientIndividual
deriving DecidableEq, Repr

/-- A message to send to the server. -/
inductive ToServer where
  | connect (acceptVersion host : String) (login passcode : Option String)
      (heartbeat : Option (UInt32 × UInt32))
  | send (destination : String) (transaction : Option String)
      (headers : Option (List (String × String))) (body : Option Bytes)
  | subscribe (destination id : String) (ack : Option AckMode)
  | unsubscribe (id : String)
  | ack (id : String) (transaction : Option String)
  | nack (id : String) (transaction : Option String)
  | begin (transaction : String)
  | commit (transaction : String)
  | abort (transaction : String)
  | disconnect (receipt : Option String)
deriving DecidableEq, Repr

/-- A message received from the server. -/
inductive FromServer where
  | connected (version : String) (session server heartbeat : Option String)
  | message (destination messageId subscription : String) (ack : Option String)
      (headers : List (String × String)) (body : Option Bytes)
  | receipt (receiptId : String)
  | error (message : Option String) (body : Option Bytes)
deriving DecidableEq, Repr

/-- A message and the headers that its content has no field for, as raw bytes. -/
structure Message (T : Type) where
  content : T
  extraHeaders : List (Bytes × Bytes)
deriving DecidableEq, Repr

/-- The errors of the codec. -/
inductive Error where
  /-- "Expected header '{key}' missing" -/
  | missingHeader (key : String)
  /-- "Header name is not valid UTF-8" -/
  | headerNameNotUtf8
  /-- "Value of header '{key}' is not valid UTF-8" -/
  | headerValueNotUtf8 (key : String)
  /-- "Invalid ack mode: {mode}" -/
  | invalidAckMode (mode : String)
  /-- "Frame not recognized: {command}" -/
  | frameNotRecognized (command : Bytes)
  /-- "Bad heartbeat" -/
  | badHeartbeat
  /-- The `ParseIntError` of a number in a heart-beat. -/
  | badNumber
  /-- "Frame exceeds the maximum of {maxFrameSize} bytes" -/
  | frameTooLarge (maxFrameSize : ℕ)
  /-- "Parse failed: {error}" -/
  | parseFailed
deriving DecidableEq, Repr

/-- `AckMode` as `to_frame` writes it. -/
def AckMode.name : AckMode → String
  | .auto => "auto"
  | .client => "client"
  | .clientIndividual => "client-individual"

/-- Whether the content is a CONNECT, which only the connector sends. -/
def ToServer.isConnect : ToServer → Bool
  | .connect .. => true
  | _ => false

end AsyncStomp
