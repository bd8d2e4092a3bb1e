/-
# The views of a received message

A header of a MESSAGE can be read in three ways: as a field, in the list of all headers, and
among the extra headers.  The first two unescape its value and agree; the third keeps it as it
was received, although an extra header of an outgoing message is escaped.  `viewsAgree_iff`
says for which headers this makes a difference.
-/
import AsyncStomp.Codec.Headers
import AsyncStomp.Codec.Input
import AsyncStomp.Frame.Scan

namespace AsyncStomp

/-- The keys of the fields of a MESSAGE. -/
def messageKeys : List String := ["destination", "message-id", "subscription", "ack"]

/-! ### All headers -/

lemma headerToString_eq_ok_iff {h : Header} {kv : String × String} :
    headerToString h.1 h.2 = .ok kv ↔
      h.1 = asBytes kv.1 ∧ unescapeHeaderValue h.2 = asBytes kv.2 := by
  rw [← fromUtf8_eq_some, ← fromUtf8_eq_some, headerToString]
  cases fromUtf8 h.1 with
  | none => simp
  | some k => cases fromUtf8 (unescapeHeaderValue h.2) <;> simp [Prod.ext_iff]

section AllHeaders

variable {hs : List Header} {l : List (String × String)}

lemma allHeaders_eq_ok_iff :
    allHeaders hs = .ok l ↔ List.Forall₂ (fun h kv => h.1 = asBytes kv.1 ∧
      unescapeHeaderValue h.2 = asBytes kv.2) hs l := by
  rw [allHeaders, mapM_eq_ok_iff]
  simp only [headerToString_eq_ok_iff]

/-- The first entry with a name is what the field of that name is read from. -/
lemma lookup_eq_fetchHeader (h : allHeaders hs = .ok l) (key : String) :
    l.lookup key = fetchHeader hs key := by
  rw [allHeaders_eq_ok_iff] at h
  induction h with
  | nil => rfl
  | @cons h kv hs l hkv _ ih =>
      rw [fetchHeader] at ih ⊢
      rw [List.lookup_cons, ih, firstValue_cons, hkv.1]
      by_cases hkey : kv.1 = key
      · rw [if_pos (congrArg asBytes hkey), hkey, beq_self_eq_true, Option.bind_some]
        exact (fromUtf8_eq_some.2 hkv.2).symm
      · have hne : (key == kv.1) = false := beq_false_of_ne fun heq => hkey heq.symm
        rw [hne, if_neg fun heq => hkey (asBytes_inj.1 heq)]

/-- The entries under other names are the other headers, with their values unescaped. -/
lemma headersOf_filter (h : allHeaders hs = .ok l) (keys : List String) :
    headersOf (l.filter fun kv => !(keys.contains kv.1)) =
      (otherHeaders hs keys).map fun h => (h.1, unescapeHeaderValue h.2) := by
  rw [allHeaders_eq_ok_iff] at h
  induction h with
  | nil => rfl
  | @cons h kv hs l hkv _ ih =>
      have hcontains : (keys.map asBytes).contains h.1 = keys.contains kv.1 := by
        rw [hkv.1, Bool.eq_iff_iff]
        simp
      rw [otherHeaders] at ih ⊢
      rw [List.filter_cons, List.filter_cons, hcontains]
      cases keys.contains kv.1 with
      | true => exact ih
      | false =>
          rw [Bool.not_false, if_pos rfl, if_pos rfl, List.map_cons, ← ih, hkv.1, hkv.2]
          rfl

end AllHeaders

/-! ### What is decoded -/

/-- A MESSAGE was read from the headers of its frame. -/
lemma Frame.messageContent_of_serverContent {f : Frame} {keys : List String}
    {destination messageId subscription : String} {ack : Option String}
    {headers : List (String × String)} {body : Option Bytes}
    (h : f.serverContent =
      .ok (keys, .message destination messageId subscription ack headers body)) :
    messageContent f.headers f.body =
      .ok (keys, .message destination messageId subscription ack headers body) := by
  rw [Frame.serverContent] at h
  by_cases hconnected : f.hasCommand ["CONNECTED", "connected"]
  · rw [if_pos hconnected] at h
    obtain ⟨version, -, hnone⟩ := except_bind_eq_ok.1 h
    cases hnone
  rw [if_neg hconnected] at h
  by_cases hmessage : f.hasCommand ["MESSAGE", "message"]
  · rw [if_pos hmessage] at h
    exact h
  rw [if_neg hmessage] at h
  by_cases hreceipt : f.hasCommand ["RECEIPT", "receipt"]
  · rw [if_pos hreceipt] at h
    obtain ⟨receiptId, -, hnone⟩ := except_bind_eq_ok.1 h
    cases hnone
  rw [if_neg hreceipt] at h
  by_cases herror : f.hasCommand ["ERROR", "error"]
  · rw [if_pos herror] at h
    cases h
  · rw [if_neg herror] at h
    cases h

/-! ### The views -/

/-- The fields of a MESSAGE are the first entries with their names. -/
structure FieldsAgree (destination messageId subscription : String) (ack : Option String)
    (headers : List (String × String)) : Prop where
  destination_eq : headers.lookup "destination" = some destination
  messageId_eq : headers.lookup "message-id" = some messageId
  subscription_eq : headers.lookup "subscription" = some subscription
  ack_eq : headers.lookup "ack" = ack

section Agree

variable {hs : List Header} {keys : List String} {destination messageId subscription : String}
  {ack : Option String} {headers : List (String × String)} {body body' : Option Bytes}

/-- The fields and the list of headers are read from the same frame. -/
lemma fieldsAgree_of_messageContent (h : messageContent hs body =
      .ok (keys, .message destination messageId subscription ack headers body')) :
    keys = messageKeys ∧ allHeaders hs = .ok headers ∧
      FieldsAgree destination messageId subscription ack headers := by
  obtain ⟨d, hd, h⟩ := except_bind_eq_ok.1 h
  obtain ⟨m, hm, h⟩ := except_bind_eq_ok.1 h
  obtain ⟨s, hsub, h⟩ := except_bind_eq_ok.1 h
  obtain ⟨l, hl, h⟩ := except_bind_eq_ok.1 h
  cases h
  have hlookup : ∀ {key v}, expectHeader hs key = .ok v → headers.lookup key = some v :=
    fun hv => (lookup_eq_fetchHeader hl _).trans (expectHeader_eq_ok_iff.1 hv)
  exact ⟨rfl, hl, hlookup hd, hlookup hm, hlookup hsub, lookup_eq_fetchHeader hl "ack"⟩

/-- The extra headers are those that have no field, as they are. -/
lemma Frame.views_of_toServerMsg {f : Frame} {extra : List Header} (h : f.toServerMsg =
      .ok ⟨.message destination messageId subscription ack headers body, extra⟩) :
    allHeaders f.headers = .ok headers ∧ extra = otherHeaders f.headers messageKeys ∧
      FieldsAgree destination messageId subscription ack headers := by
  obtain ⟨⟨keys, content⟩, hcontent, hmsg⟩ := except_bind_eq_ok.1 h
  cases hmsg
  obtain ⟨rfl, hall, hfields⟩ :=
    fieldsAgree_of_messageContent (messageContent_of_serverContent hcontent)
  exact ⟨hall, rfl, hfields⟩

end Agree

/-! ### Copying extra headers -/

/-- What a value is read as behind a command: only those of a CONNECT or a CONNECTED are read as
they are. -/
def readValue (command v : Bytes) : Bytes :=
  if headersAreEscaped command then unescapeHeaderValue v else v

lemma readValue_writtenHeader (command : Bytes) (h : Header) :
    readValue command (writtenHeader (headersAreEscaped command) h).2 = h.2 := by
  rw [readValue]
  cases headersAreEscaped command with
  | true => exact unescapeHeaderValue_escape h.2
  | false => rw [writtenHeader_false, if_neg Bool.false_ne_true, id_eq]

namespace Message

/-- The headers that a message gets on the wire beside those of its content. -/
def copiedHeaders (msg : Message ToServer) : List Header :=
  msg.toFrame.writtenHeaders.drop msg.content.toFrame.headers.length

end Message

/-- The headers under keys that a message with this content does not use. -/
def ToServer.unused (content : ToServer) (headers : List Header) : List Header :=
  headers.filter fun h => !((content.toFrame.headers.map Prod.fst).contains h.1)

lemma Message.copiedHeaders_eq (content : ToServer) (extra : List Header) :
    copiedHeaders ⟨content, extra⟩ = (content.unused extra).map
      (writtenHeader (headersAreEscaped (asBytes content.command))) := by
  rw [copiedHeaders, Frame.writtenHeaders, toFrame_command, toFrame, Frame.addExtraHeaders_headers,
    List.map_append, List.drop_left' (List.length_map _)]
  rfl

/-- A message with this content and the extra headers `extra` brings its reader the values that
`received` had for the reader of a MESSAGE. -/
def CopiesAgree (content : ToServer) (extra received : List Header) : Prop :=
  (Message.copiedHeaders ⟨content, extra⟩).map
      (fun h => readValue (asBytes content.command) h.2) =
    (content.unused received).map fun h => unescapeHeaderValue h.2

/-- The values are the same even byte for byte. -/
def CopiesVerbatim (content : ToServer) (extra received : List Header) : Prop :=
  (Message.copiedHeaders ⟨content, extra⟩).map Prod.snd =
    (content.unused received).map Prod.snd

lemma copiesAgree_iff (content : ToServer) (extra : List Header) :
    CopiesAgree content extra extra ↔
      ∀ h ∈ content.unused extra, unescapeHeaderValue h.2 = h.2 := by
  rw [CopiesAgree, Message.copiedHeaders_eq, List.map_map, eq_comm]
  simp only [Function.comp_def, readValue_writtenHeader]
  exact List.map_inj_left

lemma copiesVerbatim_iff {content : ToServer} (hcontent : content.isConnect = false)
    (extra : List Header) :
    CopiesVerbatim content extra extra ↔
      ∀ h ∈ content.unused extra, ∀ b ∈ h.2, isSpecial b = false := by
  have hescaped : headersAreEscaped (asBytes content.command) = true := by
    rw [content.command_spec.2.2, hcontent]
    rfl
  rw [CopiesVerbatim, Message.copiedHeaders_eq, hescaped, List.map_map, List.map_inj_left]
  simp only [← escape_eq_self_iff]
  rfl

/-- A DISCONNECT without a receipt has no headers of its own. -/
lemma unused_disconnect (headers : List Header) :
    (ToServer.disconnect none).unused headers = headers :=
  List.filter_eq_self.2 fun _ _ => rfl

/-! ### The views -/

/-- The views of a MESSAGE with the headers `received` agree. -/
structure ViewsAgree (received : List Header) (destination messageId subscription : String)
    (ack : Option String) (headers : List (String × String)) (extra : List Header) : Prop
    extends FieldsAgree destination messageId subscription ack headers where
  /-- The extra headers are the entries under other names. -/
  extra_eq : extra = headersOf (headers.filter fun kv => !(messageKeys.contains kv.1))
  /-- Copied to a message, they bring its reader the same values. -/
  copies : ∀ content, CopiesAgree content extra (otherHeaders received messageKeys)

/-- No backslash of the value starts a sequence that stands for something else. -/
def HoldsNoEscape (v : Bytes) : Prop :=
  ∀ b, .pair b ∈ scan v → ¬ (EscapePiece.pair b).Defined

/-- **When the views of a MESSAGE agree.**  The fields are always the first entries with their
names.  The extra headers are the other entries, and have the same values when they are copied, if
and only if none of their values holds an escape sequence; the copies are the same byte for byte if
and only if no value holds a byte that is escaped. -/
theorem viewsAgree_iff (codec : ClientCodec) (g : Gap) (w : WireFrame) (more rest : Bytes)
    {destination messageId subscription : String} {ack : Option String}
    {headers : List (String × String)} {body : Option Bytes} {extra : List Header}
    (h : codec.decode (g.bytes ++ (w.bytes ++ more)) =
      (.ok (some ⟨.message destination messageId subscription ack headers body, extra⟩), rest)) :
    FieldsAgree destination messageId subscription ack headers ∧
      (ViewsAgree w.frame.headers destination messageId subscription ack headers extra ↔
        ∀ hd ∈ otherHeaders w.frame.headers messageKeys, HoldsNoEscape hd.2) ∧
      ((∀ content, content.isConnect = false →
          CopiesVerbatim content extra (otherHeaders w.frame.headers messageKeys)) ↔
        ∀ hd ∈ otherHeaders w.frame.headers messageKeys, ∀ b ∈ hd.2, isSpecial b = false) := by
  have hmsg := (ClientCodec.decode_frame_eq_some_iff.1 h).1
  obtain ⟨hall, rfl, hfields⟩ := Frame.views_of_toServerMsg hmsg
  have hself : ∀ v, HoldsNoEscape v ↔ unescapeHeaderValue v = v := fun v =>
    (unescapeHeaderValue_eq_self_iff v).symm
  simp only [hself]
  have hmem : ∀ {content : ToServer} {hd},
      hd ∈ content.unused (otherHeaders w.frame.headers messageKeys) →
        hd ∈ otherHeaders w.frame.headers messageKeys := fun h => (List.mem_filter.1 h).1
  refine ⟨hfields, ⟨fun hagree => ?_, fun hnone => ⟨hfields, ?_, fun content => ?_⟩⟩,
    fun hverbatim => ?_, fun hplain content hcontent => ?_⟩
  · -- a DISCONNECT has no header that could stand in the way of a copy
    have hcopies := (copiesAgree_iff _ _).1 (hagree.copies (.disconnect none))
    rw [unused_disconnect] at hcopies
    exact hcopies
  · have hsame : ∀ hd ∈ otherHeaders w.frame.headers messageKeys,
        (hd.1, unescapeHeaderValue hd.2) = id hd := fun hd hhd => Prod.ext rfl (hnone hd hhd)
    rw [headersOf_filter hall, List.map_congr_left hsame, List.map_id]
  · exact (copiesAgree_iff content _).2 fun hd hhd => hnone hd (hmem hhd)
  · have hcopies := (copiesVerbatim_iff rfl _).1 (hverbatim (.disconnect none) rfl)
    rw [unused_disconnect] at hcopies
    exact hcopies
  · exact (copiesVerbatim_iff hcontent _).2 fun hd hhd => hplain hd (hmem hhd)

/-! ### A value with a colon -/

/-- A header line with strings that stay within it. -/
def HeaderLine.ofStrings (key value : String) (h : asBytes key ≠ [] ∧
    (∀ b ∈ asBytes key, keyStop b = false) ∧ ∀ b ∈ asBytes value, isEol b = false) : HeaderLine :=
  ⟨asBytes key, asBytes value, .lf, h.1, h.2.1, h.2.2⟩

/-- A MESSAGE with two destinations and a colon in the value of an extra header. -/
def escapedMessage : WireFrame where
  command := asBytes "MESSAGE"
  commandEol := .lf
  headers := [.ofStrings "destination" "q\\cd" (by decide +kernel),
    .ofStrings "message-id" "1" (by decide +kernel),
    .ofStrings "subscription" "s" (by decide +kernel),
    .ofStrings "k" "a\\cb" (by decide +kernel),
    .ofStrings "destination" "x" (by decide +kernel)]
  blank := .lf
  body := asBytes "hi"
  command_ne := by decide
  command_alpha := by decide +kernel
  body_fits := BodyFits.of_none (by decide +kernel) (by decide +kernel)

/-- What it lists as its headers. -/
def escapedHeaders : List (String × String) :=
  [("destination", "q:d"), ("message-id", "1"), ("subscription", "s"), ("k", "a:b"),
    ("destination", "x")]

lemma decode_escapedMessage :
    (ClientCodec.mk 1024).decode ([lf] ++ (escapedMessage.bytes ++ [lf])) =
      (.ok (some ⟨.message "q:d" "1" "s" none escapedHeaders (some (asBytes "hi")),
        [(asBytes "k", asBytes "a\\cb")]⟩), []) := by
  have hcontent : escapedMessage.frame.serverContent = .ok (messageKeys,
      .message "q:d" "1" "s" none escapedHeaders (some (asBytes "hi"))) := rfl
  exact ClientCodec.decode_eq_some_iff.2 ⟨escapedMessage.frame, [lf], by decide +kernel,
    Frame.toServerMsg_of_content hcontent, rfl⟩

theorem viewsAgree_iff_escapedMessage :
    let others := otherHeaders escapedMessage.frame.headers messageKeys
    let extra := [(asBytes "k", asBytes "a\\cb")]
    FieldsAgree "q:d" "1" "s" none escapedHeaders ∧
      (ViewsAgree escapedMessage.frame.headers "q:d" "1" "s" none escapedHeaders extra ↔
        ∀ hd ∈ others, HoldsNoEscape hd.2) ∧
      ((∀ content, content.isConnect = false → CopiesVerbatim content extra others) ↔
        ∀ hd ∈ others, ∀ b ∈ hd.2, isSpecial b = false) :=
  viewsAgree_iff ⟨1024⟩ ⟨[lf], by decide +kernel⟩ escapedMessage [lf] [] decode_escapedMessage

/-- **An extra header is not unescaped**: a MESSAGE whose header `k` has the value `a:b` has the
extra header `k` with the value `a\cb`, which a copy escapes once more. -/
theorem extra_header_stays_escaped :
    let extra := [(asBytes "k", asBytes "a\\cb")]
    (ClientCodec.mk 1024).decode ([lf] ++ (escapedMessage.bytes ++ [lf])) =
        (.ok (some ⟨.message "q:d" "1" "s" none escapedHeaders (some (asBytes "hi")), extra⟩),
          []) ∧
      Message.copiedHeaders ⟨.disconnect none, extra⟩ = [(asBytes "k", asBytes "a\\\\cb")] ∧
      ¬ ViewsAgree escapedMessage.frame.headers "q:d" "1" "s" none escapedHeaders extra := by
  refine ⟨decode_escapedMessage, by decide +kernel, fun h => ?_⟩
  exact absurd h.extra_eq (by decide +kernel)

end AsyncStomp
