/-
# Custom headers on the other side

`serialize` escapes the keys of headers as well as their values, but the conversions
unescape the values only.  A list of headers therefore comes back with its keys escaped,
which is the list itself exactly when no key holds a delimiter (`headers_survive_iff`).
-/
import AsyncStomp.Codec.Fields

namespace AsyncStomp

open PartialInput PartialInput.Parser

/-- No key holds a byte that is escaped. -/
def PlainKeys (l : List (String × String)) : Prop :=
  ∀ kv ∈ l, ∀ b ∈ asBytes kv.1, isSpecial b = false

lemma escapeKeys_eq_self_iff {l : List (String × String)} : escapeKeys l = l ↔ PlainKeys l := by
  constructor
  · intro h kv hkv
    have hid : l.map (fun kv => (escapeString kv.1, kv.2)) = l.map id := by
      rw [List.map_id]
      exact h
    exact escapeString_eq_self_iff.1 (congrArg Prod.fst (List.map_inj_left.1 hid kv hkv))
  · intro h
    have hid : escapeKeys l = l.map id := by
      refine List.map_congr_left fun kv hkv => ?_
      rw [escapeString_eq_self_iff.2 (h kv hkv)]
      rfl
    rw [hid, List.map_id]

/-- Escaping does not change which headers have an expected key. -/
lemma otherHeaders_map_escapeHeader (hs : List Header) {keys : List String}
    (hplain : ∀ k ∈ keys, PlainKey k) :
    otherHeaders (hs.map escapeHeader) keys = (otherHeaders hs keys).map escapeHeader := by
  rw [otherHeaders, otherHeaders, List.filter_map]
  congr 1
  refine List.filter_congr fun h _ => ?_
  simp only [Function.comp_apply]
  congr 1
  rw [Bool.eq_iff_iff, List.contains_iff_mem, List.contains_iff_mem, List.mem_map, List.mem_map]
  constructor
  · rintro ⟨k, hk, heq⟩
    exact ⟨k, hk, escape_inj.1 ((hplain k hk).trans heq)⟩
  · rintro ⟨k, hk, heq⟩
    refine ⟨k, hk, ?_⟩
    rw [escapeHeader, ← heq]
    exact (hplain k hk).symm

/-! ### A SEND -/

/-- A SEND with the headers `l` is read back as one with the headers `l'`; no headers at all count
as an empty list. -/
def SendBrings (destination : String) (transaction : Option String) (body : Option Bytes)
    (l l' : List (String × String)) : Prop :=
  ∃ f rest msg d t h b,
    parseFrame (encode (.message ⟨.send destination transaction (some l) body, []⟩) []) =
        .ok f rest ∧
      f.toClientMsg = .ok msg ∧ msg.content = .send d t h b ∧ h.getD [] = l'

/-- The headers of a SEND beside its fields. -/
lemma otherHeaders_send {destination : String} {transaction : Option String}
    {body : Option Bytes} {l : List (String × String)}
    (hfields : ∀ kv ∈ l, kv.1 ≠ "destination" ∧ kv.1 ≠ "transaction")
    (hbody : nul ∉ body.getD []) :
    otherHeaders (Message.toFrame ⟨.send destination transaction (some l) body, []⟩).headers
      ["destination", "transaction"] = headersOf l := by
  have htyped : otherHeaders (ToServer.typedHeaders (.send destination transaction (some l) body))
      ["destination", "transaction"] = [] := by
    rw [otherHeaders, List.filter_eq_nil_iff]
    intro h hh
    have hmem := Frame.mem_withValue.1 hh
    simp only [List.mem_cons, Prod.mk.injEq, List.not_mem_nil, or_false] at hmem
    rcases hmem with ⟨hk, -⟩ | ⟨hk, -⟩ <;> simp [hk]
  have hcustom : otherHeaders (headersOf l) ["destination", "transaction"] = headersOf l := by
    rw [otherHeaders, List.filter_eq_self]
    intro h hh
    obtain ⟨kv, hkv, rfl⟩ := List.mem_map.1 hh
    have hne := hfields kv hkv
    simp [hne.1, hne.2]
  have hlength : (ToServer.send destination transaction (some l) body).lengthHeader = [] :=
    ToServer.lengthHeader_of_not_mem hbody
  rw [Message.toFrame_headers, hlength, List.append_nil, List.filter_nil, List.append_nil,
    otherHeaders, List.filter_append, ← otherHeaders, ← otherHeaders, htyped, List.nil_append]
  exact hcustom

/-- What a SEND brings: its headers, with escaped keys. -/
lemma sendBrings_iff {destination : String} {transaction : Option String} {body : Option Bytes}
    {l l' : List (String × String)} (hne : ∀ kv ∈ l, kv.1 ≠ "")
    (hlen : ∀ kv ∈ l, kv.1 ≠ "content-length")
    (hfields : ∀ kv ∈ l, kv.1 ≠ "destination" ∧ kv.1 ≠ "transaction")
    (hbody : nul ∉ body.getD []) :
    SendBrings destination transaction body l l' ↔ l' = escapeKeys l := by
  have hsafe : Message.FieldSafe ⟨.send destination transaction (some l) body, []⟩ := by
    refine ⟨rfl, fun hnul => absurd hnul hbody, hne, hlen, ?_, by simp⟩
    intro kv hkv
    have hkey := (hfields kv hkv).2
    cases transaction <;> simp [ToServer.absentFields, hkey]
  have hoptional : optionalHeaders (Message.onWire
      ⟨.send destination transaction (some l) body, []⟩).headers ["destination", "transaction"] =
        .ok (if (escapeKeys l).isEmpty then none else some (escapeKeys l)) := by
    rw [optionalHeaders, Message.onWire, otherHeaders_map_escapeHeader _ (by decide),
      otherHeaders_send hfields hbody, mapM_headersOf]
    rfl
  have hgetD : (if (escapeKeys l).isEmpty then none else some (escapeKeys l)).getD [] =
      escapeKeys l := by
    cases escapeKeys l <;> rfl
  -- what is read back are the headers that `optional_headers` finds
  obtain ⟨o, ho, hcontent⟩ := hsafe.clientContent_onWire
  rw [hoptional] at ho
  cases ho
  have hmsg := Frame.toClientMsg_of_content hcontent
  have hparse := hsafe.encodable.parseFrame_encode
  constructor
  · rintro ⟨f, rest, msg, d, t, h, b, hf, hconv, hsend, rfl⟩
    rw [hparse] at hf
    cases hf
    rw [hmsg] at hconv
    cases hconv
    cases hsend
    exact hgetD
  · rintro rfl
    exact ⟨_, _, _, _, _, _, _, hparse, hmsg, rfl, hgetD⟩

/-! ### A MESSAGE -/

/-- A MESSAGE frame with the headers `l` is decoded to a message with the headers `l'`. -/
def MessageBrings (codec : ClientCodec) (body : Option Bytes) (l l' : List (String × String)) :
    Prop :=
  ∃ rest msg d m s a b,
    codec.decode (Frame.serialize ⟨asBytes "MESSAGE", headersOf l, body⟩) =
        (.ok (some msg), rest) ∧
      msg.content = .message d m s a l' b

/-- The keys a MESSAGE cannot be without. -/
def requiredKeys : List String := ["destination", "message-id", "subscription"]

lemma firstValue_headersOf {l : List (String × String)} {k : String} (h : ∃ kv ∈ l, kv.1 = k) :
    ∃ v, firstValue (headersOf l) (asBytes k) = some (asBytes v) := by
  induction l with
  | nil => simp at h
  | cons kv l ih =>
      rw [headersOf, List.map_cons, firstValue_cons, ← headersOf]
      by_cases hk : kv.1 = k
      · exact ⟨kv.2, by simp [hk]⟩
      · obtain ⟨kv', hkv', hk'⟩ := h
        rcases List.mem_cons.1 hkv' with rfl | hmem
        · exact absurd hk' hk
        · obtain ⟨v, hv⟩ := ih ⟨kv', hmem, hk'⟩
          exact ⟨v, by simp [hk, hv]⟩

/-- A writable frame on its own is decoded to what it was written as. -/
lemma Frame.Writable.decode_serialize {f : Frame} (hf : f.Writable) (codec : ClientCodec) :
    codec.decode f.serialize = (f.written.toServerMsg.map some, []) := by
  obtain ⟨hdrop, hparse⟩ := hf.parse_serialize
  exact ClientCodec.decode_of_ok (hdrop.symm ▸ hparse)

/-- What a MESSAGE brings: its headers, with escaped keys. -/
lemma messageBrings_iff {codec : ClientCodec} {body : Option Bytes} {l l' : List (String × String)}
    (hne : ∀ kv ∈ l, kv.1 ≠ "") (hlen : ∀ kv ∈ l, kv.1 ≠ "content-length")
    (hrequired : ∀ k ∈ requiredKeys, ∃ kv ∈ l, kv.1 = k) (hbody : nul ∉ body.getD []) :
    MessageBrings codec body l l' ↔ l' = escapeKeys l := by
  have hlength : getContentLength ((headersOf l).map escapeHeader) = none := by
    apply getContentLength_of_firstValue_none
    have hkey : escape (asBytes "content-length") = asBytes "content-length" := by decide
    have hnone : firstValue (headersOf l) (asBytes "content-length") = none := by
      rw [firstValue_eq_none]
      intro h hh
      obtain ⟨kv, hkv, rfl⟩ := List.mem_map.1 hh
      exact fun heq => hlen kv hkv (asBytes_inj.1 heq)
    rw [firstValue_map_escapeHeader _ hkey, hnone]
    rfl
  have hcommand : asBytes "MESSAGE" ≠ [] ∧ (∀ b ∈ asBytes "MESSAGE", isAlpha b = true) ∧
      headersAreEscaped (asBytes "MESSAGE") = true := by decide +kernel
  have hwritable : Frame.Writable ⟨asBytes "MESSAGE", headersOf l, body⟩ := by
    refine Frame.Writable.of_escaped hcommand.1 hcommand.2.1 hcommand.2.2 ?_
      (BodyFits.of_none hlength hbody)
    intro h hh hnil
    obtain ⟨kv, hkv, rfl⟩ := List.mem_map.1 hh
    have hempty : asBytes kv.1 = asBytes "" := hnil
    exact hne kv hkv (asBytes_inj.1 hempty)
  have hfetch : ∀ k ∈ requiredKeys,
      ∃ v, fetchHeader ((headersOf l).map escapeHeader) k = some v := by
    intro k hk
    have hplain : ∀ k ∈ requiredKeys, PlainKey k := by decide
    obtain ⟨v, hv⟩ := firstValue_headersOf (hrequired k hk)
    exact ⟨v, by rw [fetchHeader_map_escapeHeader _ (hplain k hk), hv, Option.bind_some,
      fromUtf8_asBytes]⟩
  obtain ⟨d, hd⟩ := hfetch "destination" (by decide)
  obtain ⟨m, hm⟩ := hfetch "message-id" (by decide)
  obtain ⟨sub, hs⟩ := hfetch "subscription" (by decide)
  have hall : allHeaders ((headersOf l).map escapeHeader) = .ok (escapeKeys l) := mapM_headersOf l
  have hcontent : (Frame.written ⟨asBytes "MESSAGE", headersOf l, body⟩).serverContent = _ :=
    messageContent_eq hd hm hs hall (bodyOf ((headersOf l).map escapeHeader) (body.getD []))
  have hdecode := hwritable.decode_serialize codec
  rw [Frame.toServerMsg_of_content hcontent] at hdecode
  constructor
  · rintro ⟨rest, msg, d', m', s', a, b, hf, hmessage⟩
    rw [hdecode] at hf
    cases hf
    cases hmessage
    rfl
  · rintro rfl
    exact ⟨_, _, _, _, _, _, _, hdecode, rfl⟩

/-! ### Both directions -/

/-- **When headers survive.**  Without empty keys and without a `content-length`, a list of headers
comes back from a SEND and from a MESSAGE unchanged if and only if no key holds a carriage return,
a line feed, a colon or a backslash. -/
theorem headers_survive_iff (l : List (String × String)) (hne : ∀ kv ∈ l, kv.1 ≠ "")
    (hlen : ∀ kv ∈ l, kv.1 ≠ "content-length") :
    ((∀ kv ∈ l, kv.1 ≠ "destination" ∧ kv.1 ≠ "transaction") →
      ∀ destination transaction body, nul ∉ body.getD [] →
        (SendBrings destination transaction body l l ↔ PlainKeys l)) ∧
      ((∀ k ∈ requiredKeys, ∃ kv ∈ l, kv.1 = k) → ∀ codec body, nul ∉ body.getD [] →
        (MessageBrings codec body l l ↔ PlainKeys l)) := by
  constructor
  · intro hfields destination transaction body hbody
    rw [sendBrings_iff hne hlen hfields hbody, eq_comm, escapeKeys_eq_self_iff]
  · intro hrequired codec body hbody
    rw [messageBrings_iff hne hlen hrequired hbody, eq_comm, escapeKeys_eq_self_iff]

/-- Headers with delimiters in their values, in both directions. -/
theorem headers_survive_iff_values :
    let l := [("k", "a:b\r\n"), ("path", "C:\\temp")]
    let l' := [("destination", "q:1"), ("message-id", "\\"), ("subscription", "s"), ("x y", ":")]
    (SendBrings "q" none (some [104, 105]) l l ↔ PlainKeys l) ∧
      (MessageBrings ⟨1024⟩ none l' l' ↔ PlainKeys l') :=
  ⟨(headers_survive_iff _ (by decide) (by decide)).1 (by decide) "q" none _ (by decide),
    (headers_survive_iff _ (by decide) (by decide)).2 (by decide) ⟨1024⟩ none (by decide)⟩

/-- **A key with a colon does not survive**: a SEND and a MESSAGE with the header `a:b` are read
back with the header `a\cb`. -/
theorem colon_in_key_is_lost :
    let l := [("a:b", "v")]
    let required := [("destination", "q"), ("message-id", "1"), ("subscription", "s")]
    ¬ SendBrings "q" none none l l ∧ SendBrings "q" none none l [("a\\cb", "v")] ∧
      ¬ MessageBrings ⟨1024⟩ none (required ++ l) (required ++ l) ∧
      MessageBrings ⟨1024⟩ none (required ++ l) (required ++ [("a\\cb", "v")]) := by
  refine ⟨?_, ?_, ?_, ?_⟩
  · rw [sendBrings_iff (by decide) (by decide) (by decide) (by decide)]
    decide
  · rw [sendBrings_iff (by decide) (by decide) (by decide) (by decide)]
    decide
  · rw [messageBrings_iff (by decide) (by decide) (by decide) (by decide)]
    decide
  · rw [messageBrings_iff (by decide) (by decide) (by decide) (by decide)]
    decide

end AsyncStomp
