/-
# The fields of a message on the other side

A message other than a CONNECT is read back with the fields it was sent with, whatever
custom headers go with it (`fields_round_trip`): a field is written in front of them, its
key is plain, and the reader takes the first value it finds.
-/
import AsyncStomp.Codec.Received

namespace AsyncStomp

open PartialInput PartialInput.Parser

lemma exists_map_eq {α β : Type} {f : α → β} {ys : List β} (h : ∀ y ∈ ys, ∃ x, f x = y) :
    ∃ xs : List α, ys = xs.map f := by
  induction ys with
  | nil => exact ⟨[], rfl⟩
  | cons y ys ih =>
      obtain ⟨x, rfl⟩ := h y (by simp)
      obtain ⟨xs, rfl⟩ := ih fun z hz => h z (by simp [hz])
      exact ⟨x :: xs, rfl⟩

/-! ### What custom headers may do -/

namespace ToServer

/-- The fields of a message without the headers a SEND brings along. -/
def withoutHeaders : ToServer → ToServer
  | send destination transaction _ body => send destination transaction none body
  | content => content

/-- A header that is a string, key and value. -/
def StringTuple (t : HeaderTuple) : Prop :=
  (∃ k : String, t.1 = asBytes k) ∧ ∀ b, t.2 = some b → ∃ v : String, b = asBytes v

lemma stringTuple_some (k v : String) : StringTuple (asBytes k, some (asBytes v)) := by
  refine ⟨⟨k, rfl⟩, ?_⟩
  rintro b hb
  exact ⟨v, (Option.some.inj hb).symm⟩

lemma stringTuple_map {α : Type} {f : α → Bytes} (k : String) (o : Option α)
    (hf : ∀ a, ∃ v : String, f a = asBytes v) : StringTuple (asBytes k, o.map f) := by
  refine ⟨⟨k, rfl⟩, ?_⟩
  rintro b hb
  obtain ⟨a, -, rfl⟩ := Option.map_eq_some_iff.1 hb
  exact hf a

lemma exists_string_heartbeatValue (v : UInt32 × UInt32) :
    ∃ s : String, heartbeatValue v = asBytes s := by
  refine ⟨toString v.1.toNat ++ "," ++ toString v.2.toNat, ?_⟩
  rw [asBytes_append, asBytes_append, heartbeatValue, List.append_assoc]
  rfl

/-- The headers of the fields are strings. -/
lemma exists_strings_typedHeaders {content : ToServer} {h : Header}
    (hh : h ∈ content.typedHeaders) : ∃ k v : String, h = (asBytes k, asBytes v) := by
  have hopt : ∀ k (o : Option String), StringTuple (asBytes k, optStrToBytes o) := fun k o =>
    stringTuple_map k o fun s => ⟨s, rfl⟩
  have hack : ∀ k (o : Option AckMode),
      StringTuple (asBytes k, o.map fun mode => asBytes mode.name) :=
    fun k o => stringTuple_map k o fun mode => ⟨mode.name, rfl⟩
  have hbeat : ∀ k (o : Option (UInt32 × UInt32)), StringTuple (asBytes k, o.map heartbeatValue) :=
    fun k o => stringTuple_map k o exists_string_heartbeatValue
  have htuples : ∀ hs : List HeaderTuple, (∀ t ∈ hs, StringTuple t) → h ∈ Frame.withValue hs →
      ∃ k v : String, h = (asBytes k, asBytes v) := by
    intro hs hall hmem
    obtain ⟨⟨k, hk⟩, hvalue⟩ := hall _ (Frame.mem_withValue.1 hmem)
    obtain ⟨v, hv⟩ := hvalue _ rfl
    exact ⟨k, v, Prod.ext hk hv⟩
  cases content <;>
    · refine htuples _ ?_ hh
      simp only [List.forall_mem_cons, List.not_mem_nil, false_imp_iff, implies_true, and_true,
        stringTuple_some, hopt, hack, hbeat]

end ToServer

/-- A message whose custom headers are strings under keys that are not empty, neither measure the
body nor stand for a field the message has no value for. -/
structure Message.FieldSafe (msg : Message ToServer) : Prop where
  content : msg.content.isConnect = false
  body_lt : nul ∈ msg.content.body.getD [] → (msg.content.body.getD []).length < UInt32.size
  custom_ne : ∀ kv ∈ msg.content.customHeaders, kv.1 ≠ ""
  custom_length : ∀ kv ∈ msg.content.customHeaders, kv.1 ≠ "content-length"
  custom_absent : ∀ kv ∈ msg.content.customHeaders, kv.1 ∉ msg.content.absentFields
  extra_string : ∀ h ∈ msg.extraHeaders, ∃ k v : String, h = (asBytes k, asBytes v) ∧
    k ≠ "" ∧ k ≠ "content-length" ∧ k ∉ msg.content.absentFields

namespace Message.FieldSafe

variable {msg : Message ToServer}

lemma encodable (h : msg.FieldSafe) : msg.Encodable where
  content := h.content
  body_lt := h.body_lt
  custom_ne := h.custom_ne
  custom_length := h.custom_length
  extra_ne hd hhd := by
    obtain ⟨k, v, rfl, hne, -⟩ := h.extra_string hd hhd
    intro hnil
    have hempty : asBytes k = asBytes "" := hnil
    exact hne (asBytes_inj.1 hempty)
  extra_length hd hhd heq := by
    obtain ⟨k, v, rfl, -, hne, -⟩ := h.extra_string hd hhd
    exact absurd (asBytes_inj.1 heq) hne

/-- No header stands in for a field without a value. -/
lemma noStandIn (h : msg.FieldSafe) : msg.NoStandIn := by
  intro k habsent
  -- the key is looked for in the custom headers, the length and the extra headers
  have hcustom : firstValue (headersOf msg.content.customHeaders) (asBytes k) = none := by
    rw [firstValue_eq_none]
    intro hd hhd heq
    obtain ⟨kv, hkv, rfl⟩ := List.mem_map.1 hhd
    exact h.custom_absent kv hkv (asBytes_inj.1 heq ▸ habsent)
  have hlength : firstValue msg.content.lengthHeader (asBytes k) = none := by
    rw [firstValue_eq_none]
    intro hd hhd heq
    by_cases hnul : nul ∈ msg.content.body.getD []
    · rw [ToServer.lengthHeader_of_mem hnul h.custom_length, List.mem_singleton] at hhd
      rw [hhd] at heq
      have hfield := ToServer.absentFields_subset habsent
      rw [← asBytes_inj.1 heq] at hfield
      exact msg.content.contentLength_not_mem_fieldNames hfield
    · rw [ToServer.lengthHeader_of_not_mem hnul] at hhd
      simp at hhd
  have hextra : ∀ extra : List Header, (∀ hd ∈ extra, hd ∈ msg.extraHeaders) →
      firstValue extra (asBytes k) = none := by
    intro extra hsub
    rw [firstValue_eq_none]
    intro hd hhd heq
    obtain ⟨k', v, rfl, -, -, hnot⟩ := h.extra_string hd (hsub hd hhd)
    exact hnot (asBytes_inj.1 heq ▸ habsent)
  rw [Message.standIn, Message.ownHeaders, firstValue_append, firstValue_append, hcustom, hlength,
    hextra _ fun hd hhd => (List.mem_filter.1 hhd).1]
  rfl

/-- The headers of the frame are strings. -/
lemma exists_strings (h : msg.FieldSafe) :
    ∃ l : List (String × String), msg.toFrame.headers = headersOf l := by
  have hall : ∀ hd ∈ msg.toFrame.headers, ∃ kv : String × String,
      (asBytes kv.1, asBytes kv.2) = hd := by
    intro hd hhd
    rw [Message.toFrame_headers, List.mem_append, List.mem_append, List.mem_append] at hhd
    rcases hhd with ((hhd | hhd) | hhd) | hhd
    · obtain ⟨k, v, rfl⟩ := ToServer.exists_strings_typedHeaders hhd
      exact ⟨(k, v), rfl⟩
    · obtain ⟨kv, -, rfl⟩ := List.mem_map.1 hhd
      exact ⟨kv, rfl⟩
    · by_cases hnul : nul ∈ msg.content.body.getD []
      · rw [ToServer.lengthHeader_of_mem hnul h.custom_length, List.mem_singleton] at hhd
        exact ⟨("content-length", toString (msg.content.body.getD []).length), hhd.symm⟩
      · rw [ToServer.lengthHeader_of_not_mem hnul] at hhd
        simp at hhd
    · obtain ⟨k, v, rfl, -⟩ := h.extra_string hd (List.mem_filter.1 hhd).1
      exact ⟨(k, v), rfl⟩
  exact exists_map_eq hall

/-- The headers that a SEND is read back with are there, whatever they are. -/
lemma optionalHeaders_onWire (h : msg.FieldSafe) (keys : List String) :
    ∃ o, optionalHeaders (msg.toFrame.headers.map escapeHeader) keys = .ok o := by
  obtain ⟨l, hl⟩ := h.exists_strings
  have hother : otherHeaders (msg.toFrame.headers.map escapeHeader) keys =
      (headersOf (l.filter fun kv =>
        !((keys.map asBytes).contains (escape (asBytes kv.1))))).map escapeHeader := by
    rw [otherHeaders, hl, headersOf, List.map_map, List.filter_map, headersOf, List.map_map]
    rfl
  rw [optionalHeaders, hother, mapM_headersOf]
  exact ⟨_, rfl⟩

/-- The frame of a message is converted back to its fields. -/
lemma clientContent_onWire (h : msg.FieldSafe) :
    ∃ o, optionalHeaders msg.onWire.headers ["destination", "transaction"] = .ok o ∧
      msg.onWire.clientContent =
        .ok (msg.content.fieldNames, (msg.content.withHeaders o).withoutEmptyBody) := by
  obtain ⟨o, ho⟩ := h.optionalHeaders_onWire ["destination", "transaction"]
  refine ⟨o, ho, ?_⟩
  rw [Message.clientContent_onWire h.content, Message.receivedContent_of_noStandIn h.noStandIn ho]
  rfl

end Message.FieldSafe

/-- **The fields of a message come through.**  Encoding a message other than a CONNECT, parsing
it and converting it gives a message with the same fields, an empty body counting as none, whatever
custom headers it carries. -/
theorem fields_round_trip (msg : Message ToServer) (h : msg.FieldSafe) :
    ∃ f msg', parseFrame (encode (.message msg) []) = .ok f [] ∧ f.toClientMsg = .ok msg' ∧
      msg'.content.withoutHeaders = msg.content.withoutHeaders.withoutEmptyBody := by
  obtain ⟨o, -, hcontent⟩ := h.clientContent_onWire
  refine ⟨msg.onWire, _, h.encodable.parseFrame_encode, Frame.toClientMsg_of_content hcontent, ?_⟩
  cases msg.content <;> rfl

/-- A SEND whose custom headers repeat its destination and hold delimiters. -/
theorem fields_round_trip_shadowed :
    let msg : Message ToServer :=
      ⟨.send "/queue/a" (some "tx:1") (some [("destination", "/queue/b"), ("a:b", "c\nd")])
        (some [0]), [(asBytes "transaction", asBytes "tx-2")]⟩
    ∃ f msg', parseFrame (encode (.message msg) []) = .ok f [] ∧ f.toClientMsg = .ok msg' ∧
      msg'.content.withoutHeaders = msg.content.withoutHeaders.withoutEmptyBody := by
  refine fields_round_trip _ ⟨rfl, by decide, by decide, by decide, by decide, ?_⟩
  rintro h hh
  rw [List.mem_singleton] at hh
  exact ⟨"transaction", "tx-2", hh, by decide, by decide, by decide⟩

end AsyncStomp
