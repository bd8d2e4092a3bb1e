/-
# When the fields of a message arrive

A custom header stands in for a field that has no value: a custom `ack` sets the mode of a
SUBSCRIBE, or makes it unreadable.  Exactly that, and in a SEND a header that is no text, keeps the
fields of a message from arriving as they are (`fieldsArrive_iff`).
-/
import AsyncStomp.Codec.Headers
import AsyncStomp.Frame.Utf8

namespace AsyncStomp

open PartialInput PartialInput.Parser

/-- The first value under a key, in a list of strings. -/
lemma firstValue_headersOf_eq (l : List (String × String)) (k : String) :
    firstValue (headersOf l) (asBytes k) = (l.lookup k).map asBytes := by
  induction l with
  | nil => rfl
  | cons kv l ih =>
      obtain ⟨k', v⟩ := kv
      rw [headersOf, List.map_cons, firstValue_cons, ← headersOf, ih, List.lookup_cons]
      by_cases hk : k' = k
      · simp [hk]
      · have hne : asBytes k' ≠ asBytes k := fun h => hk (asBytes_inj.1 h)
        have hbeq : (k == k') = false := beq_eq_false_iff_ne.2 (Ne.symm hk)
        simp only [if_neg hne, hbeq]

/-- Headers under other keys may be left out. -/
lemma firstValue_filter {p : Header → Bool} {key : Bytes} {hs : List Header}
    (hp : ∀ h ∈ hs, h.1 = key → p h = true) :
    firstValue (hs.filter p) key = firstValue hs key := by
  induction hs with
  | nil => rfl
  | cons h hs ih =>
      have hrest := ih fun g hg => hp g (List.mem_cons_of_mem h hg)
      by_cases hkeep : p h = true
      · rw [List.filter_cons_of_pos hkeep, firstValue_cons, firstValue_cons, hrest]
      · have hne : h.1 ≠ key := fun hkey => hkeep (hp h List.mem_cons_self hkey)
        rw [List.filter_cons_of_neg hkeep, hrest, firstValue_cons, if_neg hne]

namespace Message

variable (msg : Message ToServer)

/-! ### Fields that arrive as they are -/

/-- A message arrives with its fields: its frame is read, and converted to a message with the same
ones, an empty body counting as none. -/
def FieldsArrive (msg : Message ToServer) : Prop :=
  ∃ f msg', parseFrame (encode (.message msg) []) = .ok f [] ∧ f.toClientMsg = .ok msg' ∧
    msg'.content.withoutHeaders = msg.content.withoutHeaders.withoutEmptyBody

/-- The headers that a SEND has beside its fields are text. -/
def HeadersAreText (msg : Message ToServer) : Prop :=
  msg.content.command = "SEND" →
    ∀ h ∈ otherHeaders msg.toFrame.headers ["destination", "transaction"], h.IsUtf8

lemma isUtf8_escapeHeader {h : Header} : (escapeHeader h).IsUtf8 ↔ h.IsUtf8 := by
  have hescape : ∀ v, ValidUtf8 (escape v) ↔ ValidUtf8 v := fun v => by
    rw [← validUtf8_unescapeHeaderValue, unescapeHeaderValue_escape]
  exact and_congr (hescape h.1) (hescape h.2)

/-- The headers of a SEND are read where they are text. -/
lemma exists_optionalHeaders_onWire :
    (∃ o, optionalHeaders msg.onWire.headers ["destination", "transaction"] = .ok o) ↔
      ∀ h ∈ otherHeaders msg.toFrame.headers ["destination", "transaction"], h.IsUtf8 := by
  have hplain : ∀ k ∈ ["destination", "transaction"], PlainKey k := by decide
  rw [exists_optionalHeaders, onWire, otherHeaders_map_escapeHeader _ hplain, List.forall_mem_map]
  simp only [isUtf8_escapeHeader]

variable {msg}

lemma fieldsArrive_iff_content (h : msg.Encodable) :
    msg.FieldsArrive ↔ ∃ content, msg.receivedContent = .ok content ∧
      content.withoutHeaders = msg.content.withoutHeaders.withoutEmptyBody := by
  have hcontent := clientContent_onWire h.content
  rw [FieldsArrive, h.parseFrame_encode]
  constructor
  · rintro ⟨f, msg', ⟨⟩, hmsg, hfields⟩
    rw [Frame.toClientMsg, hcontent] at hmsg
    cases hreceived : msg.receivedContent with
    | error e =>
        rw [hreceived] at hmsg
        cases hmsg
    | ok content =>
        rw [hreceived] at hmsg
        cases hmsg
        exact ⟨content, rfl, hfields⟩
  · rintro ⟨content, hreceived, hfields⟩
    rw [hreceived] at hcontent
    exact ⟨_, _, rfl, Frame.toClientMsg_of_content hcontent, hfields⟩

/-- A message whose content is read in any case. -/
lemma exists_pure_iff {content read : ToServer} :
    (∃ c, (pure read : Except Error ToServer) = .ok c ∧
      c.withoutHeaders = content.withoutHeaders.withoutEmptyBody) ↔
        read.withoutHeaders = content.withoutHeaders.withoutEmptyBody := by
  constructor
  · rintro ⟨c, ⟨⟩, h⟩
    exact h
  · exact fun h => ⟨read, rfl, h⟩

/-- A header that is there is not read as no mode. -/
lemma ackMode_some_ne {mode : String} (h : ackMode (some mode) = .ok none) : False := by
  rw [ackMode] at h
  split_ifs at h <;> cases h

/-- **When the fields of a message arrive.**  A message that can be encoded is read with the fields
it was sent with if and only if none of its headers stands in for a field without a value and, in a
SEND, its other headers are text. -/
theorem fieldsArrive_iff (msg : Message ToServer) (h : msg.Encodable) :
    msg.FieldsArrive ↔ msg.NoStandIn ∧ msg.HeadersAreText := by
  rw [fieldsArrive_iff_content h, NoStandIn, HeadersAreText, ← exists_optionalHeaders_onWire]
  have hconnect := h.content
  obtain ⟨content, extra⟩ := msg
  simp only [receivedContent]
  cases content with
  | connect => simp [ToServer.isConnect] at hconnect
  | send destination transaction headers body =>
      cases optionalHeaders (Message.onWire _).headers ["destination", "transaction"] with
      | error e =>
          constructor
          · rintro ⟨content, ⟨⟩, -⟩
          · rintro ⟨-, hheaders⟩
            obtain ⟨o, ⟨⟩⟩ := hheaders rfl
      | ok o =>
          refine exists_pure_iff.trans ?_
          cases transaction <;> simp [ToServer.absentFields, ToServer.withoutHeaders,
            ToServer.withoutEmptyBody]
  | subscribe destination id ack =>
      cases ack with
      | some mode =>
          refine exists_pure_iff.trans ?_
          simp [ToServer.absentFields, ToServer.command, ToServer.withoutHeaders,
            ToServer.withoutEmptyBody]
      | none =>
          simp only [ToServer.absentFields, ToServer.command, List.forall_mem_singleton]
          cases standIn _ "ack" with
          | none =>
              refine exists_pure_iff.trans ?_
              simp [ToServer.withoutHeaders, ToServer.withoutEmptyBody]
          | some mode =>
              -- the header either is no mode or sets one
              simp only [reduceCtorEq, false_and, iff_false]
              rintro ⟨content, hread, hfields⟩
              obtain ⟨ack, hack, hpure⟩ := except_bind_eq_ok.1 hread
              cases hpure
              simp only [ToServer.withoutHeaders, ToServer.withoutEmptyBody,
                ToServer.subscribe.injEq, true_and] at hfields
              rw [hfields] at hack
              exact ackMode_some_ne hack
  | ack id transaction =>
      refine exists_pure_iff.trans ?_
      cases transaction <;> simp [ToServer.absentFields, ToServer.command, ToServer.withoutHeaders,
        ToServer.withoutEmptyBody]
  | nack id transaction =>
      refine exists_pure_iff.trans ?_
      cases transaction <;> simp [ToServer.absentFields, ToServer.command, ToServer.withoutHeaders,
        ToServer.withoutEmptyBody]
  | disconnect receipt =>
      refine exists_pure_iff.trans ?_
      cases receipt <;> simp [ToServer.absentFields, ToServer.command, ToServer.withoutHeaders,
        ToServer.withoutEmptyBody]
  | _ =>
      refine exists_pure_iff.trans ?_
      simp [ToServer.absentFields, ToServer.command, ToServer.withoutHeaders,
        ToServer.withoutEmptyBody]

/-- A custom header sets the mode of a SUBSCRIBE that leaves it to the server. -/
theorem fieldsArrive_iff_customAck :
    let msg : Message ToServer :=
      ⟨.subscribe "/queue/a" "1" none, [(asBytes "ack", asBytes "client")]⟩
    (msg.FieldsArrive ↔ msg.NoStandIn ∧ msg.HeadersAreText) ∧ ¬ msg.NoStandIn ∧
      msg.onWire.toClientMsg = .ok ⟨.subscribe "/queue/a" "1" (some .client), []⟩ := by
  intro msg
  have hstandIn : msg.standIn "ack" = some "client" := by decide
  refine ⟨fieldsArrive_iff msg ⟨rfl, nofun, by decide, nofun, nofun, ?_⟩, ?_, ?_⟩
  · intro h hh heq
    obtain rfl := List.mem_singleton.1 hh
    exact absurd heq (by decide)
  · intro hnone
    rw [hnone "ack" List.mem_cons_self] at hstandIn
    cases hstandIn
  · decide

end Message

end AsyncStomp
