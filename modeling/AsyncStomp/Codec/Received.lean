/-
# What a server makes of a message

A reader looks for every field among all the headers of a frame, and takes the first it finds.  So a
custom header is never taken for a field that has a value, but stands in for one that has none.
`clientContent_onWire` says field by field what a message is read as.
-/
import AsyncStomp.Codec.Output

namespace AsyncStomp

open PartialInput PartialInput.Parser

/-! ### Converting escaped headers -/

/-- Header strings as the headers of a frame. -/
def headersOf (l : List (String × String)) : List Header :=
  l.map fun kv => (asBytes kv.1, asBytes kv.2)

/-- The headers with the keys left escaped. -/
def escapeKeys (l : List (String × String)) : List (String × String) :=
  l.map fun kv => (escapeString kv.1, kv.2)

lemma headerToString_escape (k v : String) :
    headerToString (escape (asBytes k)) (escape (asBytes v)) = .ok (escapeString k, v) := by
  simp only [headerToString, ← asBytes_escapeString, fromUtf8_asBytes]
  simp only [asBytes_escapeString, unescapeHeaderValue_escape, fromUtf8_asBytes]

/-- Headers that are strings in escaped form convert, with their keys left escaped. -/
lemma mapM_headersOf (l : List (String × String)) :
    ((headersOf l).map escapeHeader).mapM (fun h => headerToString h.1 h.2) =
      .ok (escapeKeys l) := by
  induction l with
  | nil => rfl
  | cons kv l ih =>
      rw [headersOf, List.map_cons, ← headersOf, List.map_cons, List.mapM_cons, ih, escapeHeader,
        headerToString_escape]
      rfl

/-! ### Fields with and without a value -/

namespace ToServer

/-- The keys of the fields a message has no value for. -/
def absentFields : ToServer → List String
  | send _ none _ _ => ["transaction"]
  | subscribe _ _ none => ["ack"]
  | ack _ none => ["transaction"]
  | nack _ none => ["transaction"]
  | disconnect none => ["receipt"]
  | _ => []

/-- The keys of the fields of a message, with a value or without. -/
def fieldNames : ToServer → List String
  | connect .. => ["accept-version", "host", "login", "passcode", "heart-beat"]
  | send .. => ["destination", "transaction"]
  | subscribe .. => ["destination", "id", "ack"]
  | unsubscribe .. => ["id"]
  | ack .. => ["id", "transaction"]
  | nack .. => ["id", "transaction"]
  | begin .. => ["transaction"]
  | commit .. => ["transaction"]
  | abort .. => ["transaction"]
  | disconnect .. => ["receipt"]

lemma absentFields_subset {content : ToServer} {k : String} (hk : k ∈ content.absentFields) :
    k ∈ content.fieldNames := by
  cases content with
  | connect => cases hk
  | send destination transaction headers body =>
      cases transaction <;> simp_all [absentFields, fieldNames]
  | subscribe destination id ack => cases ack <;> simp_all [absentFields, fieldNames]
  | unsubscribe id => cases hk
  | ack id transaction => cases transaction <;> simp_all [absentFields, fieldNames]
  | nack id transaction => cases transaction <;> simp_all [absentFields, fieldNames]
  | begin transaction => cases hk
  | commit transaction => cases hk
  | abort transaction => cases hk
  | disconnect receipt => cases receipt <;> simp_all [absentFields, fieldNames]

/-- The measure of the body is no field. -/
lemma contentLength_not_mem_fieldNames (content : ToServer) :
    "content-length" ∉ content.fieldNames := by
  cases content <;> simp [fieldNames]

/-- The message with other headers brought along, if it is a SEND. -/
def withHeaders (headers : Option (List (String × String))) : ToServer → ToServer
  | send destination transaction _ body => send destination transaction headers body
  | content => content

/-- The message with an empty body taken for an absent one. -/
def withoutEmptyBody : ToServer → ToServer
  | send destination transaction headers body =>
      send destination transaction headers (body.bind isEmptySlice)
  | content => content

end ToServer

namespace Message

variable (msg : Message ToServer)

/-- The headers of a message's frame beside those of its fields. -/
def ownHeaders : List Header :=
  headersOf msg.content.customHeaders ++ msg.content.lengthHeader ++
    msg.extraHeaders.filter fun h => !((msg.content.toFrame.headers.map Prod.fst).contains h.1)

lemma toFrame_headers_eq :
    msg.toFrame.headers = msg.content.typedHeaders ++ msg.ownHeaders := by
  rw [toFrame_headers, ownHeaders, List.append_assoc, List.append_assoc, List.append_assoc]
  rfl

/-- The header that is found for a field without a value. -/
def standIn (key : String) : Option String :=
  (firstValue msg.ownHeaders (asBytes key)).bind fromUtf8

/-- The content as a server reads it. -/
def receivedContent : Except Error ToServer :=
  match msg.content with
  | .send destination transaction _ body => do
      let headers ← optionalHeaders msg.onWire.headers ["destination", "transaction"]
      pure (.send destination (transaction.or (msg.standIn "transaction")) headers
        (body.bind isEmptySlice))
  | .subscribe destination id (some ack) => pure (.subscribe destination id (some ack))
  | .subscribe destination id none => do
      let ack ← ackMode (msg.standIn "ack")
      pure (.subscribe destination id ack)
  | .ack id transaction => pure (.ack id (transaction.or (msg.standIn "transaction")))
  | .nack id transaction => pure (.nack id (transaction.or (msg.standIn "transaction")))
  | .disconnect receipt => pure (.disconnect (receipt.or (msg.standIn "receipt")))
  | content => pure content

variable {msg}

/-- A field is found with its value, or with that of the header that stands in for it. -/
lemma fetchHeader_onWire {k : String} {o : Option String} (hk : k ∈ fieldKeys)
    (hfield : firstValue msg.content.typedHeaders (asBytes k) = o.map asBytes) :
    fetchHeader msg.onWire.headers k = o.or (msg.standIn k) := by
  have hplain : ∀ k ∈ fieldKeys, PlainKey k := by decide
  rw [onWire, fetchHeader_map_escapeHeader _ (hplain k hk), toFrame_headers_eq, firstValue_append,
    hfield]
  cases o with
  | none => rfl
  | some v => exact fromUtf8_asBytes v

/-- The frame of a message is converted field by field. -/
lemma clientContent_onWire (h : msg.content.isConnect = false) :
    msg.onWire.clientContent =
      msg.receivedContent.map fun content => (msg.content.fieldNames, content) := by
  have hcommand : ∀ names, msg.onWire.hasCommand names = names.contains msg.content.command :=
    Frame.hasCommand_of_command msg.toFrame_command
  have hbody : msg.onWire.body = msg.content.body.bind isEmptySlice := rfl
  have hfield := @fetchHeader_onWire msg
  obtain ⟨content, extra⟩ := msg
  simp only [Frame.clientContent, hcommand, hbody]
  cases content with
  | connect => simp [ToServer.isConnect] at h
  | send destination transaction headers body =>
      have hd := @hfield "destination" (some destination) (by decide)
        (by simp [ToServer.typedHeaders])
      have ht := @hfield "transaction" transaction (by decide)
        (by simp [ToServer.typedHeaders, optStrToBytes])
      refine (sendContent_eq hd ht _).trans ?_
      rw [receivedContent]
      cases optionalHeaders (Message.onWire _).headers ["destination", "transaction"] <;> rfl
  | subscribe destination id ack =>
      have hd := @hfield "destination" (some destination) (by decide)
        (by simp [ToServer.typedHeaders, ToServer.toFrame, Frame.new])
      have hid := @hfield "id" (some id) (by decide)
        (by simp [ToServer.typedHeaders, ToServer.toFrame, Frame.new])
      have hack := @hfield "ack" (ack.map AckMode.name) (by decide)
        (by simp [ToServer.typedHeaders, ToServer.toFrame, Frame.new, Function.comp_def])
      refine (subscribeContent_eq hd hid).trans ?_
      rw [hack, receivedContent]
      cases ack with
      | none =>
          simp only [Option.map_none, Option.none_or]
          cases ackMode (standIn _ "ack") <;> rfl
      | some mode => cases mode <;> rfl
  | unsubscribe id =>
      have hid := @hfield "id" (some id) (by decide)
        (by simp [ToServer.typedHeaders, ToServer.toFrame, Frame.new])
      exact unsubscribeContent_eq hid
  | ack id transaction =>
      have hid := @hfield "id" (some id) (by decide)
        (by simp [ToServer.typedHeaders, ToServer.toFrame, Frame.new])
      have ht := @hfield "transaction" transaction (by decide)
        (by simp [ToServer.typedHeaders, ToServer.toFrame, Frame.new, optStrToBytes])
      exact ackContent_eq hid ht ToServer.ack
  | nack id transaction =>
      have hid := @hfield "id" (some id) (by decide)
        (by simp [ToServer.typedHeaders, ToServer.toFrame, Frame.new])
      have ht := @hfield "transaction" transaction (by decide)
        (by simp [ToServer.typedHeaders, ToServer.toFrame, Frame.new, optStrToBytes])
      exact ackContent_eq hid ht ToServer.nack
  | begin transaction =>
      have ht := @hfield "transaction" (some transaction) (by decide)
        (by simp [ToServer.typedHeaders, ToServer.toFrame, Frame.new])
      exact transactionContent_eq ht _
  | commit transaction =>
      have ht := @hfield "transaction" (some transaction) (by decide)
        (by simp [ToServer.typedHeaders, ToServer.toFrame, Frame.new])
      exact transactionContent_eq ht _
  | abort transaction =>
      have ht := @hfield "transaction" (some transaction) (by decide)
        (by simp [ToServer.typedHeaders, ToServer.toFrame, Frame.new])
      exact transactionContent_eq ht _
  | disconnect receipt =>
      have hr := @hfield "receipt" receipt (by decide)
        (by simp [ToServer.typedHeaders, ToServer.toFrame, Frame.new, optStrToBytes])
      show Except.ok (_, ToServer.disconnect (fetchHeader _ "receipt")) = _
      rw [hr]
      rfl

/-- No header stands in for a field without a value. -/
def NoStandIn (msg : Message ToServer) : Prop :=
  ∀ k ∈ msg.content.absentFields, msg.standIn k = none

/-- Then the fields are read as they are. -/
lemma receivedContent_of_noStandIn (h : msg.NoStandIn) {o : Option (List (String × String))}
    (ho : optionalHeaders msg.onWire.headers ["destination", "transaction"] = .ok o) :
    msg.receivedContent = .ok (msg.content.withHeaders o).withoutEmptyBody := by
  have hnone : ∀ k ∈ msg.content.absentFields, msg.standIn k = none := h
  have hor : ∀ k (v : Option String), (v = none → k ∈ msg.content.absentFields) →
      v.or (msg.standIn k) = v := by
    intro k v hk
    cases v with
    | none => rw [hnone k (hk rfl), Option.or_none]
    | some v => rfl
  obtain ⟨content, extra⟩ := msg
  simp only [receivedContent]
  cases content with
  | send destination transaction headers body =>
      have ht := hor "transaction" transaction (by rintro rfl; simp [ToServer.absentFields])
      rw [ho]
      exact congrArg (fun t => Except.ok (ToServer.send destination t o _)) ht
  | subscribe destination id ack =>
      cases ack with
      | none =>
          rw [hnone "ack" (by simp [ToServer.absentFields])]
          rfl
      | some mode => rfl
  | ack id transaction =>
      have ht := hor "transaction" transaction (by rintro rfl; simp [ToServer.absentFields])
      exact congrArg (fun t => Except.ok (ToServer.ack id t)) ht
  | nack id transaction =>
      have ht := hor "transaction" transaction (by rintro rfl; simp [ToServer.absentFields])
      exact congrArg (fun t => Except.ok (ToServer.nack id t)) ht
  | disconnect receipt =>
      have hr := hor "receipt" receipt (by rintro rfl; simp [ToServer.absentFields])
      exact congrArg (fun r => Except.ok (ToServer.disconnect r)) hr
  | _ => rfl

end Message

end AsyncStomp
