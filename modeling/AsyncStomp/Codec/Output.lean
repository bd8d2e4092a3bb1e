/-
# Encoding what a client sends

Whatever is in the strings and the bodies of the messages, a stream of encoded messages
and heart-beats is read back as one frame for each message (`frames_encodeAll`).  Headers
cannot leave their lines because they are escaped, and bodies cannot end early because a
body with NUL bytes is measured.
-/
import AsyncStomp.Codec.Basic
import AsyncStomp.Frame.Serialize

namespace AsyncStomp

open PartialInput PartialInput.Parser

/-! ### The headers of the fields -/

/-- The keys that `to_frame` writes the fields of messages under. -/
def fieldKeys : List String :=
  ["accept-version", "host", "login", "heart-beat", "passcode", "receipt", "destination", "id",
    "ack", "transaction"]

namespace ToServer

lemma exists_fieldKey {content : ToServer} {h : Header} (hh : h ∈ content.typedHeaders) :
    ∃ k ∈ fieldKeys, h.1 = asBytes k := by
  have hkeys : ∀ hs : List HeaderTuple, (∀ t ∈ hs, ∃ k ∈ fieldKeys, t.1 = asBytes k) →
      h ∈ Frame.withValue hs → ∃ k ∈ fieldKeys, h.1 = asBytes k :=
    fun hs hall hmem => hall _ (Frame.mem_withValue.1 hmem)
  cases content <;>
    · refine hkeys _ ?_ hh
      simp [fieldKeys]

/-- The keys of the fields are neither empty nor that of the measure. -/
lemma typedHeaders_ne {content : ToServer} {h : Header} (hh : h ∈ content.typedHeaders) :
    h.1 ≠ [] ∧ h.1 ≠ asBytes "content-length" := by
  have hkeys : ∀ k ∈ fieldKeys, asBytes k ≠ [] ∧ asBytes k ≠ asBytes "content-length" := by
    decide
  obtain ⟨k, hk, hkey⟩ := exists_fieldKey hh
  rw [hkey]
  exact hkeys k hk

/-- A body without NUL bytes is not measured. -/
lemma lengthHeader_of_not_mem {content : ToServer} (h : nul ∉ content.body.getD []) :
    content.lengthHeader = [] := by
  cases content with
  | send destination transaction headers body =>
      cases body with
      | none => rfl
      | some body =>
          have hnul : body.contains nul = false := by simpa [ToServer.body] using h
          rw [lengthHeader, hnul]
          rfl
  | _ => rfl

/-- A body with NUL bytes is measured, unless the message already says how long it is. -/
lemma lengthHeader_of_mem {content : ToServer} (h : nul ∈ content.body.getD [])
    (hcustom : ∀ kv ∈ content.customHeaders, kv.1 ≠ "content-length") :
    content.lengthHeader =
      [(asBytes "content-length", decimal (content.body.getD []).length)] := by
  cases content with
  | send destination transaction headers body =>
      cases body with
      | none => simp [ToServer.body] at h
      | some body =>
          have hnul : body.contains nul = true := by simpa [ToServer.body] using h
          have hany : ((headers.getD []).any fun kv => kv.1 == "content-length") = false := by
            rw [List.any_eq_false]
            intro kv hkv
            simpa using hcustom kv hkv
          rw [lengthHeader, hnul, hany]
          rfl
  | _ => simp [ToServer.body] at h

end ToServer

/-! ### Messages that can be encoded -/

/-- A message whose frame is read back: not a CONNECT, with no empty header key, a body that a
`u32` measures where it has to be measured, and no `content-length` of its own except where the
codec's takes precedence. -/
structure Message.Encodable (msg : Message ToServer) : Prop where
  content : msg.content.isConnect = false
  custom_ne : ∀ kv ∈ msg.content.customHeaders, kv.1 ≠ ""
  extra_ne : ∀ h ∈ msg.extraHeaders, h.1 ≠ []
  body_lt : nul ∈ msg.content.body.getD [] → (msg.content.body.getD []).length < UInt32.size
  custom_length : ∀ kv ∈ msg.content.customHeaders, kv.1 ≠ "content-length"
  extra_length : ∀ h ∈ msg.extraHeaders, h.1 = asBytes "content-length" →
    nul ∈ msg.content.body.getD []

namespace Message

/-- The frame a reader finds where a message was encoded. -/
def onWire (msg : Message ToServer) : Frame :=
  ⟨msg.toFrame.command, msg.toFrame.headers.map escapeHeader, msg.content.body.bind isEmptySlice⟩

lemma toFrame_headers (msg : Message ToServer) :
    msg.toFrame.headers = msg.content.typedHeaders ++
      msg.content.customHeaders.map (fun kv => (asBytes kv.1, asBytes kv.2)) ++
        msg.content.lengthHeader ++
          msg.extraHeaders.filter fun h =>
            !((msg.content.toFrame.headers.map Prod.fst).contains h.1) := by
  rw [toFrame, Frame.addExtraHeaders_headers, ToServer.toFrame_headers]

@[simp] lemma toFrame_command (msg : Message ToServer) :
    msg.toFrame.command = asBytes msg.content.command := by
  rw [toFrame, Frame.addExtraHeaders_command, ToServer.toFrame_command]

@[simp] lemma toFrame_body (msg : Message ToServer) : msg.toFrame.body = msg.content.body := by
  rw [toFrame, Frame.addExtraHeaders_body, ToServer.toFrame_body]

lemma firstValue_typedHeaders_contentLength (content : ToServer) :
    firstValue content.typedHeaders (asBytes "content-length") = none :=
  firstValue_eq_none.2 fun _ hh => (ToServer.typedHeaders_ne hh).2

end Message

/-- The commands consist of letters, and only the headers of a CONNECT are not escaped. -/
lemma ToServer.command_spec (content : ToServer) :
    asBytes content.command ≠ [] ∧ (∀ b ∈ asBytes content.command, isAlpha b = true) ∧
      headersAreEscaped (asBytes content.command) = !content.isConnect := by
  cases content <;> simp only [ToServer.command, ToServer.isConnect] <;> decide +kernel

namespace Message.Encodable

variable {msg : Message ToServer}

lemma firstValue_contentLength (h : msg.Encodable) :
    firstValue msg.toFrame.headers (asBytes "content-length") =
      if nul ∈ msg.content.body.getD [] then some (decimal (msg.content.body.getD []).length)
      else none := by
  have hcustom : firstValue (msg.content.customHeaders.map fun kv => (asBytes kv.1, asBytes kv.2))
      (asBytes "content-length") = none := by
    rw [firstValue_eq_none]
    intro hd hhd
    obtain ⟨kv, hkv, rfl⟩ := List.mem_map.1 hhd
    simpa using h.custom_length kv hkv
  rw [Message.toFrame_headers, firstValue_append, firstValue_append, firstValue_append, hcustom,
    Message.firstValue_typedHeaders_contentLength, Option.none_or, Option.none_or]
  by_cases hnul : nul ∈ msg.content.body.getD []
  · rw [if_pos hnul, ToServer.lengthHeader_of_mem hnul h.custom_length, firstValue_cons,
      if_pos rfl, Option.some_or]
  · rw [if_neg hnul, ToServer.lengthHeader_of_not_mem hnul, firstValue_nil, Option.none_or,
      firstValue_eq_none]
    intro hd hhd heq
    exact hnul (h.extra_length hd (List.mem_filter.1 hhd).1 heq)

/-- What the headers of an encodable message, as written, say about the length of its body. -/
lemma getContentLength_onWire (h : msg.Encodable) :
    getContentLength (msg.toFrame.headers.map escapeHeader) =
      if nul ∈ msg.content.body.getD [] then
        some (UInt32.ofNat (msg.content.body.getD []).length)
      else none := by
  have hkey : escape (asBytes "content-length") = asBytes "content-length" := by decide
  have hvalue := firstValue_map_escapeHeader msg.toFrame.headers hkey
  rw [h.firstValue_contentLength] at hvalue
  by_cases hnul : nul ∈ msg.content.body.getD []
  · rw [if_pos hnul, Option.map_some, escape_decimal] at hvalue
    rw [if_pos hnul]
    exact getContentLength_of_decimal (h.body_lt hnul) hvalue
  · rw [if_neg hnul, Option.map_none] at hvalue
    rw [if_neg hnul]
    exact getContentLength_of_firstValue_none hvalue

lemma body_fits (h : msg.Encodable) :
    BodyFits (msg.toFrame.headers.map escapeHeader) (msg.content.body.getD []) := by
  have hlen := h.getContentLength_onWire
  by_cases hnul : nul ∈ msg.content.body.getD []
  · rw [if_pos hnul] at hlen
    refine BodyFits.of_some hlen ?_
    rw [UInt32.toNat_ofNat', Nat.mod_eq_of_lt (h.body_lt hnul)]
  · rw [if_neg hnul] at hlen
    exact BodyFits.of_none hlen hnul

lemma bodyOf_onWire (h : msg.Encodable) :
    bodyOf (msg.toFrame.headers.map escapeHeader) (msg.content.body.getD []) =
      msg.content.body.bind isEmptySlice := by
  rw [bodyOf, h.getContentLength_onWire]
  cases hbody : msg.content.body with
  | none => simp [isEmptySlice]
  | some body =>
      by_cases hnul : nul ∈ body
      · have hne : body ≠ [] := List.ne_nil_of_mem hnul
        simp [hnul, isEmptySlice, hne]
      · simp [hnul]

/-- The frame of an encodable message is read back from its own bytes. -/
lemma writable (h : msg.Encodable) : msg.toFrame.Writable := by
  obtain ⟨hne, halpha, hescaped⟩ := msg.content.command_spec
  rw [h.content, Bool.not_false] at hescaped
  rw [← Message.toFrame_command] at hne halpha hescaped
  refine Frame.Writable.of_escaped hne halpha hescaped ?_ ?_
  · intro hd hhd
    rw [Message.toFrame_headers, List.mem_append, List.mem_append, List.mem_append] at hhd
    rcases hhd with ((hhd | hhd) | hhd) | hhd
    · exact (ToServer.typedHeaders_ne hhd).1
    · obtain ⟨kv, hkv, rfl⟩ := List.mem_map.1 hhd
      intro hnil
      have hempty : asBytes kv.1 = asBytes "" := hnil
      exact h.custom_ne kv hkv (asBytes_inj.1 hempty)
    · by_cases hnul : nul ∈ msg.content.body.getD []
      · rw [ToServer.lengthHeader_of_mem hnul h.custom_length, List.mem_singleton] at hhd
        rw [hhd]
        show asBytes "content-length" ≠ []
        decide
      · rw [ToServer.lengthHeader_of_not_mem hnul] at hhd
        simp at hhd
    · exact h.extra_ne hd (List.mem_filter.1 hhd).1
  · rw [Message.toFrame_body]
    exact h.body_fits

/-- What is read back is the message's frame with escaped headers. -/
lemma written (h : msg.Encodable) : msg.toFrame.written = msg.onWire := by
  have hescaped : headersAreEscaped msg.toFrame.command = true := by
    rw [Message.toFrame_command, msg.content.command_spec.2.2, h.content]
    rfl
  rw [Frame.written, Frame.writtenHeaders, hescaped, writtenHeader_true, Message.toFrame_body,
    h.bodyOf_onWire, Message.onWire]

/-- An encodable message on its own is read back with nothing left over. -/
lemma parseFrame_encode (h : msg.Encodable) :
    parseFrame (encode (.message msg) []) = .ok msg.onWire [] := by
  rw [encode, List.nil_append, h.writable.parseFrame_serialize, h.written]

end Message.Encodable

/-! ### Streams -/

namespace Item

/-- A heart-beat can always be encoded. -/
def Encodable : Item → Prop
  | heartbeat => True
  | message msg => msg.Encodable

/-- The frame a reader finds where an item was encoded: none for a heart-beat. -/
def onWire : Item → Option Frame
  | heartbeat => none
  | message msg => some msg.onWire

/-- The bytes of an item. -/
def bytes : Item → Bytes
  | heartbeat => [lf]
  | message msg => msg.toFrame.serialize

end Item

lemma encode_eq (item : Item) (dst : Bytes) : encode item dst = dst ++ item.bytes := by
  cases item <;> rfl

lemma encodeAll_eq (items : List Item) (dst : Bytes) :
    encodeAll items dst = dst ++ items.flatMap Item.bytes := by
  induction items generalizing dst with
  | nil => simp [encodeAll]
  | cons item items ih =>
      have hstep : encodeAll (item :: items) dst = encodeAll items (encode item dst) := rfl
      rw [hstep, ih, encode_eq, List.flatMap_cons, List.append_assoc]

/-- **An output stream is read back message by message.**  Heart-beats leave no trace, and the
frames are those of the messages in order, with escaped headers and unchanged bodies; nothing is
left over. -/
theorem frames_encodeAll (items : List Item) (hitems : ∀ item ∈ items, item.Encodable) :
    frames isEol parseFrame (encodeAll items []) =
      (items.filterMap Item.onWire, .waiting []) := by
  rw [frames_parseFrame, encodeAll_eq, List.nil_append]
  induction items with
  | nil => exact frames_eols (by simp)
  | cons item items ih =>
      have hrest := ih fun i hi => hitems i (by simp [hi])
      have hitem := hitems item (by simp)
      rw [List.flatMap_cons]
      cases item with
      | heartbeat =>
          have hgap : ∀ b ∈ [lf], isEol b = true := Eol.lf.isEol_of_mem
          exact (frames_filler_append consumes_parseThroughNul hgap _).trans hrest
      | message msg =>
          have hmsg : msg.Encodable := hitem
          obtain ⟨w, hbytes, hframe⟩ := hmsg.writable.exists_wireFrame
          have hnext := frames_wireFrame w (items.flatMap Item.bytes)
          rw [hbytes, hframe, hmsg.written, hrest] at hnext
          exact hnext

/-- A stream with delimiters and a NUL where they could do harm. -/
def awkwardItems : List Item :=
  [.heartbeat,
    .message ⟨.send "/queue/a\nb" none (some [("k:1", "v\r\nx")]) (some [104, nul, 105]),
      [(asBytes "content-length", asBytes "1"), ([nul], [lf, lf])]⟩,
    .heartbeat, .message ⟨.disconnect (some "77"), []⟩]

theorem frames_encodeAll_awkwardItems :
    frames isEol parseFrame (encodeAll awkwardItems []) =
      (awkwardItems.filterMap Item.onWire, .waiting []) := by
  refine frames_encodeAll awkwardItems ?_
  intro item hitem
  simp only [awkwardItems, List.mem_cons, List.not_mem_nil, or_false] at hitem
  rcases hitem with rfl | rfl | rfl | rfl
  · trivial
  · exact ⟨rfl, by decide, by decide, by decide, by decide, by decide⟩
  · trivial
  · exact ⟨rfl, by decide, by decide, by decide, by decide, by decide⟩

end AsyncStomp
