/-
# Encoding what was decoded

A message that is encoded, parsed and converted can be encoded again.  A SEND then carries its
custom headers twice, with unescaped values among its own headers and as they were received among
the extra ones, of which the first take precedence; any other message has them as they were
received only.  `reencodes_iff` says when the second encoding is the first.
-/
import AsyncStomp.Codec.Headers

namespace AsyncStomp

open PartialInput PartialInput.Parser

/-! ### Longer in escaped form -/

lemma length_le_length_escape (bytes : Bytes) : bytes.length ≤ (escape bytes).length := by
  have hle : ∀ b ∈ bytes, [b].length ≤ (writeEscaped true b).length := fun b _ =>
    List.length_pos_iff.2 (writeEscaped_ne_nil b)
  have hlen := length_flatMap_le hle
  rw [List.flatMap_singleton'] at hlen
  exact hlen

namespace Frame

lemma serializeHeader_true (h : Header) :
    serializeHeader true h = escape h.1 ++ colon :: (escape h.2 ++ [lf]) := rfl

lemma length_serializeHeader (h : Header) :
    (serializeHeader true h).length = (escape h.1).length + (escape h.2).length + 2 := by
  rw [serializeHeader_true, List.length_append, List.length_cons, List.length_append,
    List.length_singleton]
  omega

/-- A header line is at least as long as another one part by part, and the same: then the headers
are the same. -/
lemma serializeHeader_eq_iff {h h' : Header} (hkey : (escape h.1).length ≤ (escape h'.1).length)
    (hvalue : (escape h.2).length ≤ (escape h'.2).length) :
    serializeHeader true h' = serializeHeader true h ↔ h' = h := by
  constructor
  · intro heq
    have hlen := congrArg List.length heq
    rw [length_serializeHeader, length_serializeHeader] at hlen
    rw [serializeHeader_true, serializeHeader_true] at heq
    obtain ⟨hk, htail⟩ := List.append_inj heq (by omega)
    obtain ⟨hv, -⟩ := List.append_inj (List.cons.inj htail).2 (by omega)
    exact Prod.ext (escape_inj.1 hk) (escape_inj.1 hv)
  · rintro rfl
    rfl

/-- Frames that differ in some headers only, which are never shorter in one of them, have the same
bytes where these headers are the same. -/
lemma serialize_eq_iff {command : Bytes} (hescaped : headersAreEscaped command = true)
    {same own : List Header} {g : Header → Header} {body body' : Option Bytes}
    (hbody : body'.getD [] = body.getD [])
    (hkey : ∀ h, (escape h.1).length ≤ (escape (g h).1).length)
    (hvalue : ∀ h, (escape h.2).length ≤ (escape (g h).2).length) :
    serialize ⟨command, same ++ own.map g, body'⟩ = serialize ⟨command, same ++ own, body⟩ ↔
      ∀ h ∈ own, g h = h := by
  have hle : ∀ h ∈ own, (serializeHeader true h).length ≤ (serializeHeader true (g h)).length := by
    intro h _
    have hk := hkey h
    have hv := hvalue h
    rw [length_serializeHeader, length_serializeHeader]
    omega
  have hlines := flatMap_eq_flatMap_iff hle
  have hmap : (own.map g).flatMap (serializeHeader true) =
      own.flatMap fun h => serializeHeader true (g h) := List.flatMap_map _ _ _
  rw [serialize, serialize, hescaped, hbody, List.flatMap_append, List.flatMap_append, hmap]
  constructor
  · intro heq h hh
    have hcancel := List.append_cancel_right (List.cons.inj (List.append_cancel_left heq)).2
    exact (serializeHeader_eq_iff (hkey h) (hvalue h)).1
      (hlines.1 (List.append_cancel_left hcancel) h hh)
  · intro hsame
    rw [hlines.2 fun h hh => congrArg _ (hsame h hh)]

end Frame

/-! ### The headers beside the fields -/

namespace ToServer

/-- Whether the content is a SEND, which alone has headers of its own. -/
def isSend : ToServer → Bool
  | send .. => true
  | _ => false

/-- The fields are written under their names. -/
lemma mem_fieldNames {content : ToServer} {h : Header} (hh : h ∈ content.typedHeaders) :
    h.1 ∈ content.fieldNames.map asBytes := by
  have hkeys : ∀ hs : List HeaderTuple, (∀ t ∈ hs, t.1 ∈ content.fieldNames.map asBytes) →
      h ∈ Frame.withValue hs → h.1 ∈ content.fieldNames.map asBytes :=
    fun hs hall hmem => hall _ (Frame.mem_withValue.1 hmem)
  cases content <;>
    · refine hkeys _ ?_ hh
      simp [fieldNames]

lemma plainKey_of_mem_fieldNames {content : ToServer} : ∀ k ∈ content.fieldNames, PlainKey k := by
  cases content <;> simp only [fieldNames] <;> decide

/-- A key of a custom header that stands neither for a field nor for the measure of the body. -/
structure OwnKey (content : ToServer) (k : String) : Prop where
  ne_empty : k ≠ ""
  ne_length : k ≠ "content-length"
  not_field : k ∉ content.fieldNames

end ToServer

/-- A message other than a CONNECT whose custom headers are strings under keys of their own. -/
structure Message.HeadersApart (msg : Message ToServer) : Prop where
  content : msg.content.isConnect = false
  body_lt : (msg.content.body.getD []).length < UInt32.size
  custom : ∀ kv ∈ msg.content.customHeaders, msg.content.OwnKey kv.1
  extra : ∀ h ∈ msg.extraHeaders, ∃ k v : String, h = (asBytes k, asBytes v) ∧
    msg.content.OwnKey k

namespace Message.HeadersApart

variable {msg : Message ToServer}

lemma fieldSafe (h : msg.HeadersApart) : msg.FieldSafe where
  content := h.content
  body_lt _ := h.body_lt
  custom_ne kv hkv := (h.custom kv hkv).ne_empty
  custom_length kv hkv := (h.custom kv hkv).ne_length
  custom_absent kv hkv habsent :=
    (h.custom kv hkv).not_field (ToServer.absentFields_subset habsent)
  extra_string hd hhd := by
    obtain ⟨k, v, rfl, hk⟩ := h.extra hd hhd
    exact ⟨k, v, rfl, hk.ne_empty, hk.ne_length,
      fun habsent => hk.not_field (ToServer.absentFields_subset habsent)⟩

/-- The headers beside the fields are strings. -/
lemma exists_headersOf (h : msg.HeadersApart) : ∃ l, msg.ownHeaders = headersOf l := by
  obtain ⟨l, hl⟩ := h.fieldSafe.exists_strings
  refine exists_map_eq fun hd hhd => ?_
  have hmem : hd ∈ msg.toFrame.headers := by
    rw [Message.toFrame_headers_eq]
    exact List.mem_append_right _ hhd
  rw [hl] at hmem
  obtain ⟨kv, -, hkv⟩ := List.mem_map.1 hmem
  exact ⟨kv, hkv⟩

/-- The headers beside the fields stand under other keys. -/
lemma not_mem_fieldNames (h : msg.HeadersApart) {hd : Header} (hhd : hd ∈ msg.ownHeaders) :
    hd.1 ∉ msg.content.fieldNames.map asBytes := by
  have hnot : ∀ k, k ∉ msg.content.fieldNames → asBytes k ∉ msg.content.fieldNames.map asBytes := by
    intro k hk hmem
    obtain ⟨k', hk', heq⟩ := List.mem_map.1 hmem
    exact hk (asBytes_inj.1 heq ▸ hk')
  rw [Message.ownHeaders, List.mem_append, List.mem_append] at hhd
  rcases hhd with (hhd | hhd) | hhd
  · obtain ⟨kv, hkv, rfl⟩ := List.mem_map.1 hhd
    exact hnot _ (h.custom kv hkv).not_field
  · by_cases hnul : nul ∈ msg.content.body.getD []
    · rw [ToServer.lengthHeader_of_mem hnul h.fieldSafe.custom_length, List.mem_singleton] at hhd
      rw [hhd]
      exact hnot _ msg.content.contentLength_not_mem_fieldNames
    · rw [ToServer.lengthHeader_of_not_mem hnul] at hhd
      cases hhd
  · obtain ⟨k, v, rfl, hk⟩ := h.extra hd (List.mem_filter.1 hhd).1
    exact hnot _ hk.not_field

/-- What is read back beside the fields. -/
lemma otherHeaders_onWire (h : msg.HeadersApart) :
    otherHeaders msg.onWire.headers msg.content.fieldNames = msg.ownHeaders.map escapeHeader := by
  have htyped : otherHeaders msg.content.typedHeaders msg.content.fieldNames = [] := by
    rw [otherHeaders, List.filter_eq_nil_iff]
    intro hd hhd
    simp [ToServer.mem_fieldNames hhd]
  have hown : otherHeaders msg.ownHeaders msg.content.fieldNames = msg.ownHeaders := by
    rw [otherHeaders, List.filter_eq_self]
    intro hd hhd
    simp [h.not_mem_fieldNames hhd]
  rw [Message.onWire, otherHeaders_map_escapeHeader _ ToServer.plainKey_of_mem_fieldNames,
    Message.toFrame_headers_eq, otherHeaders, List.filter_append, ← otherHeaders, ← otherHeaders,
    htyped, hown, List.nil_append]

/-- A SEND is read back with the headers beside its fields, their keys left escaped. -/
lemma getD_of_isSend (h : msg.HeadersApart) (hsend : msg.content.isSend = true)
    {l : List (String × String)} (hl : msg.ownHeaders = headersOf l)
    {o : Option (List (String × String))}
    (ho : optionalHeaders msg.onWire.headers ["destination", "transaction"] = .ok o) :
    o.getD [] = escapeKeys l := by
  have hnames : msg.content.fieldNames = ["destination", "transaction"] := by
    cases hcontent : msg.content <;> simp_all [ToServer.isSend, ToServer.fieldNames]
  have hother := h.otherHeaders_onWire
  rw [hnames, hl] at hother
  rw [optionalHeaders, hother, mapM_headersOf] at ho
  cases ho
  cases escapeKeys l <;> rfl

end Message.HeadersApart

/-! ### The second encoding -/

/-- How a header beside the fields is encoded the second time. -/
def ToServer.rereadHeader (content : ToServer) (h : Header) : Header :=
  if content.isSend then (escape h.1, h.2) else escapeHeader h

namespace ToServer

variable {content : ToServer}

lemma typedHeaders_withHeaders (o : Option (List (String × String))) :
    (content.withHeaders o).withoutEmptyBody.typedHeaders = content.typedHeaders := by
  cases content <;> rfl

lemma command_withHeaders (o : Option (List (String × String))) :
    (content.withHeaders o).withoutEmptyBody.command = content.command := by
  cases content <;> rfl

lemma body_withHeaders (o : Option (List (String × String))) :
    (content.withHeaders o).withoutEmptyBody.body = content.body.bind isEmptySlice := by
  cases content <;> rfl

lemma customHeaders_withHeaders (o : Option (List (String × String))) :
    (content.withHeaders o).withoutEmptyBody.customHeaders =
      if content.isSend then o.getD [] else [] := by
  cases content <;> rfl

lemma lengthHeader_of_not_isSend (h : content.isSend = false) : content.lengthHeader = [] := by
  cases content with
  | send => cases h
  | _ => rfl

/-- A message that says how long its body is, is not told once more. -/
lemma lengthHeader_of_any
    (h : content.customHeaders.any (fun kv => kv.1 == "content-length") = true) :
    content.lengthHeader = [] := by
  cases content with
  | send destination transaction headers body =>
      cases body with
      | none => rfl
      | some body =>
          have hany : (headers.getD []).any (fun kv => kv.1 == "content-length") = true := h
          rw [lengthHeader, hany, Bool.not_true, Bool.and_false, if_neg Bool.false_ne_true]
  | _ => rfl

end ToServer

lemma getD_bind_isEmptySlice (body : Option Bytes) :
    (body.bind isEmptySlice).getD [] = body.getD [] := by
  cases body with
  | none => rfl
  | some body => cases body <;> rfl

namespace Message.HeadersApart

variable {msg : Message ToServer}

/-- The measure of the body is among the headers that are read back, so it is not added again. -/
lemma lengthHeader_reread (h : msg.HeadersApart) {l : List (String × String)}
    (hl : msg.ownHeaders = headersOf l) {o : Option (List (String × String))}
    (ho : msg.content.isSend = true → o.getD [] = escapeKeys l) :
    (msg.content.withHeaders o).withoutEmptyBody.lengthHeader = [] := by
  by_cases hnul : nul ∈ msg.content.body.getD []
  · -- only a SEND has a body, and its length is among the headers it is read back with
    have hlength := ToServer.lengthHeader_of_mem hnul h.fieldSafe.custom_length
    have hsend : msg.content.isSend = true := by
      by_contra hnot
      rw [ToServer.lengthHeader_of_not_isSend (Bool.eq_false_iff.2 hnot)] at hlength
      cases hlength
    have hmem : (asBytes "content-length", decimal (msg.content.body.getD []).length) ∈
        headersOf l := by
      rw [← hl, Message.ownHeaders, hlength]
      simp
    obtain ⟨kv, hkv, hheader⟩ := List.mem_map.1 hmem
    have hkey : kv.1 = "content-length" := asBytes_inj.1 (congrArg Prod.fst hheader)
    refine ToServer.lengthHeader_of_any ?_
    rw [ToServer.customHeaders_withHeaders, if_pos hsend, ho hsend, List.any_eq_true]
    refine ⟨_, List.mem_map.2 ⟨kv, hkv, rfl⟩, ?_⟩
    have hplain : escapeString "content-length" = "content-length" := by decide
    rw [hkey, hplain, beq_self_eq_true]
  · refine ToServer.lengthHeader_of_not_mem ?_
    rw [ToServer.body_withHeaders, getD_bind_isEmptySlice]
    exact hnul

/-- The headers of the second encoding: the copies among the extra headers are left out of a SEND,
and any other message has no copies. -/
lemma headers_reread (h : msg.HeadersApart) {l : List (String × String)}
    (hl : msg.ownHeaders = headersOf l) {o : Option (List (String × String))}
    (ho : msg.content.isSend = true → o.getD [] = escapeKeys l) :
    (Message.toFrame ⟨(msg.content.withHeaders o).withoutEmptyBody,
        msg.ownHeaders.map escapeHeader⟩).headers =
      msg.content.typedHeaders ++ msg.ownHeaders.map msg.content.rereadHeader := by
  rw [Message.toFrame_headers, ToServer.toFrame_headers, ToServer.typedHeaders_withHeaders,
    h.lengthHeader_reread hl ho, ToServer.customHeaders_withHeaders, List.append_nil]
  cases hsend : msg.content.isSend with
  | true =>
      have hcustom : headersOf (escapeKeys l) = msg.ownHeaders.map msg.content.rereadHeader := by
        rw [hl, headersOf, headersOf, escapeKeys, List.map_map, List.map_map]
        refine List.map_congr_left fun kv _ => ?_
        simp only [Function.comp_apply, ToServer.rereadHeader, hsend, if_true,
          asBytes_escapeString]
      have hfilter : (msg.ownHeaders.map escapeHeader).filter (fun hd =>
          !(((msg.content.typedHeaders ++ headersOf (escapeKeys l)).map Prod.fst).contains
            hd.1)) = [] := by
        rw [List.filter_eq_nil_iff, hcustom]
        intro hd hhd
        obtain ⟨hd', hhd', rfl⟩ := List.mem_map.1 hhd
        have hmem : msg.content.rereadHeader hd' ∈
            msg.content.typedHeaders ++ msg.ownHeaders.map msg.content.rereadHeader :=
          List.mem_append_right _ (List.mem_map_of_mem hhd')
        have hkey : (escapeHeader hd').1 = (msg.content.rereadHeader hd').1 := by
          rw [ToServer.rereadHeader, hsend]
          rfl
        rw [hkey, List.contains_iff_mem.2 (List.mem_map_of_mem hmem)]
        exact Bool.false_ne_true
      rw [if_pos rfl, ho hsend, ← hcustom]
      exact (congrArg _ hfilter).trans (List.append_nil _)
  | false =>
      have hreread : msg.content.rereadHeader = escapeHeader := by
        funext hd
        rw [ToServer.rereadHeader, hsend, if_neg Bool.false_ne_true]
      rw [if_neg Bool.false_ne_true, List.map_nil, List.append_nil, hreread]
      congr 1
      rw [List.filter_eq_self]
      intro hd hhd
      obtain ⟨hd', hhd', rfl⟩ := List.mem_map.1 hhd
      rw [Bool.not_eq_true', ← Bool.not_eq_true, List.contains_iff_mem]
      intro hmem
      obtain ⟨typed, htyped, hkey⟩ := List.mem_map.1 hmem
      obtain ⟨k, hk, hname⟩ := List.mem_map.1 (ToServer.mem_fieldNames htyped)
      -- the name of a field is plain, so only itself is written like it
      have hplain : escape (asBytes k) = asBytes k := ToServer.plainKey_of_mem_fieldNames k hk
      have hescaped : escape (asBytes k) = escape hd'.1 := by
        rw [hplain, hname, hkey]
        rfl
      exact h.not_mem_fieldNames hhd' (escape_inj.1 hescaped ▸ List.mem_map_of_mem hk)

/-- The frame of the second encoding. -/
lemma toFrame_reread (h : msg.HeadersApart) {l : List (String × String)}
    (hl : msg.ownHeaders = headersOf l) {o : Option (List (String × String))}
    (ho : msg.content.isSend = true → o.getD [] = escapeKeys l) :
    Message.toFrame ⟨(msg.content.withHeaders o).withoutEmptyBody,
        msg.ownHeaders.map escapeHeader⟩ =
      ⟨asBytes msg.content.command,
        msg.content.typedHeaders ++ msg.ownHeaders.map msg.content.rereadHeader,
        msg.content.body.bind isEmptySlice⟩ := by
  have hparts : ∀ f : Frame, f = ⟨f.command, f.headers, f.body⟩ := fun _ => rfl
  rw [hparts (Message.toFrame _), h.headers_reread hl ho, Message.toFrame_command,
    Message.toFrame_body, ToServer.command_withHeaders, ToServer.body_withHeaders]

end Message.HeadersApart

/-! ### When nothing changes -/

/-- Encoded, parsed, converted and encoded again, a message gives the same bytes. -/
def Reencodes (msg : Message ToServer) : Prop :=
  ∃ f rest msg', parseFrame (encode (.message msg) []) = .ok f rest ∧ f.toClientMsg = .ok msg' ∧
    encode (.message msg') [] = encode (.message msg) []

/-- A header is encoded the second time as it was the first. -/
lemma rereadHeader_eq_self_iff {content : ToServer} {h : Header} :
    content.rereadHeader h = h ↔ (∀ b ∈ h.1, isSpecial b = false) ∧
      (content.isSend = false → ∀ b ∈ h.2, isSpecial b = false) := by
  rw [ToServer.rereadHeader, ← escape_eq_self_iff, ← escape_eq_self_iff]
  cases content.isSend with
  | true => simp [Prod.ext_iff]
  | false => simp [Prod.ext_iff, escapeHeader]

namespace Message.HeadersApart

variable {msg : Message ToServer}

/-- The second encoding is the first exactly where every header is encoded as before. -/
lemma reencodes_iff_reread (h : msg.HeadersApart) :
    Reencodes msg ↔ ∀ hd ∈ msg.ownHeaders, msg.content.rereadHeader hd = hd := by
  obtain ⟨l, hl⟩ := h.exists_headersOf
  obtain ⟨o, hoptional, hcontent⟩ := h.fieldSafe.clientContent_onWire
  have ho := fun hsend => h.getD_of_isSend hsend hl hoptional
  have hmsg := Frame.toClientMsg_of_content hcontent
  rw [h.otherHeaders_onWire] at hmsg
  have hparse := h.fieldSafe.encodable.parseFrame_encode
  have hescaped : headersAreEscaped (asBytes msg.content.command) = true := by
    rw [msg.content.command_spec.2.2, h.content]
    rfl
  have hparts : msg.toFrame = ⟨asBytes msg.content.command,
      msg.content.typedHeaders ++ msg.ownHeaders, msg.content.body⟩ := by
    rw [← Message.toFrame_command, ← Message.toFrame_headers_eq, ← Message.toFrame_body]
  -- no header is shorter the second time, so that equal lengths mean equal headers
  have hlen : ∀ hd, (escape hd.1).length ≤ (escape (msg.content.rereadHeader hd).1).length ∧
      (escape hd.2).length ≤ (escape (msg.content.rereadHeader hd).2).length := by
    intro hd
    rw [ToServer.rereadHeader]
    cases msg.content.isSend with
    | true => exact ⟨length_le_length_escape _, Nat.le_refl _⟩
    | false => exact ⟨length_le_length_escape _, length_le_length_escape _⟩
  have hbytes := @Frame.serialize_eq_iff _ hescaped msg.content.typedHeaders msg.ownHeaders
    msg.content.rereadHeader _ _ (getD_bind_isEmptySlice msg.content.body) (fun hd => (hlen hd).1)
    fun hd => (hlen hd).2
  rw [← h.toFrame_reread hl ho, ← hparts] at hbytes
  rw [← hbytes]
  constructor
  · rintro ⟨f, rest, msg', hf, hconv, heq⟩
    rw [hparse] at hf
    cases hf
    rw [hmsg] at hconv
    cases hconv
    exact heq
  · intro heq
    exact ⟨_, _, _, hparse, hmsg, heq⟩

/-- An extra header is written unless one of the custom headers has its key. -/
lemma mem_ownHeaders_or (h : msg.HeadersApart) {hd : Header} (hhd : hd ∈ msg.extraHeaders) :
    hd ∈ msg.ownHeaders ∨ ∃ kv ∈ msg.content.customHeaders, asBytes kv.1 = hd.1 := by
  by_cases hwritten : hd.1 ∈ msg.content.toFrame.headers.map Prod.fst
  · obtain ⟨hd', hhd', hkey⟩ := List.mem_map.1 hwritten
    obtain ⟨k, v, rfl, hk⟩ := h.extra hd hhd
    rw [ToServer.toFrame_headers, List.mem_append, List.mem_append] at hhd'
    rcases hhd' with (hhd' | hhd') | hhd'
    · -- the key is no field's
      obtain ⟨k', hk', hname⟩ := List.mem_map.1 (ToServer.mem_fieldNames hhd')
      exact absurd (asBytes_inj.1 (hname.trans hkey) ▸ hk') hk.not_field
    · obtain ⟨kv, hkv, rfl⟩ := List.mem_map.1 hhd'
      exact Or.inr ⟨kv, hkv, hkey⟩
    · -- nor that of the measure
      by_cases hnul : nul ∈ msg.content.body.getD []
      · rw [ToServer.lengthHeader_of_mem hnul h.fieldSafe.custom_length, List.mem_singleton]
          at hhd'
        rw [hhd'] at hkey
        exact absurd (asBytes_inj.1 hkey).symm hk.ne_length
      · rw [ToServer.lengthHeader_of_not_mem hnul] at hhd'
        cases hhd'
  · refine Or.inl (List.mem_append_right _ (List.mem_filter.2 ⟨hhd, ?_⟩))
    rw [Bool.not_eq_true', ← Bool.not_eq_true, List.contains_iff_mem]
    exact hwritten

end Message.HeadersApart

/-- A message other than a SEND has no headers of its own. -/
lemma ToServer.isSend_of_mem_customHeaders {content : ToServer} {kv : String × String}
    (h : kv ∈ content.customHeaders) : content.isSend = true := by
  cases content with
  | send => rfl
  | _ => cases h

/-- **When the second encoding is the first.**  Where custom headers keep clear of the fields and
of the measure of the body, encoding a decoded message gives the same bytes if and only if no key
of a custom header holds a byte that is escaped, nor any value outside of a SEND. -/
theorem reencodes_iff (msg : Message ToServer) (h : msg.HeadersApart) :
    Reencodes msg ↔ PlainKeys msg.content.customHeaders ∧
      ∀ hd ∈ msg.extraHeaders, (∀ b ∈ hd.1, isSpecial b = false) ∧
        (msg.content.isSend = false → ∀ b ∈ hd.2, isSpecial b = false) := by
  rw [h.reencodes_iff_reread]
  simp only [rereadHeader_eq_self_iff]
  constructor
  · intro hown
    have hcustom : PlainKeys msg.content.customHeaders := fun kv hkv =>
      (hown (asBytes kv.1, asBytes kv.2) (List.mem_append_left _
        (List.mem_append_left _ (List.mem_map.2 ⟨kv, hkv, rfl⟩)))).1
    refine ⟨hcustom, fun hd hhd => ?_⟩
    -- an extra header that is not written has the key of a custom one, which makes this a SEND
    rcases h.mem_ownHeaders_or hhd with hmem | ⟨kv, hkv, hkey⟩
    · exact hown hd hmem
    · refine ⟨hkey ▸ hcustom kv hkv, fun hnot => ?_⟩
      rw [ToServer.isSend_of_mem_customHeaders hkv] at hnot
      cases hnot
  · rintro ⟨hcustom, hextra⟩ hd hhd
    rw [Message.ownHeaders, List.mem_append, List.mem_append] at hhd
    rcases hhd with (hhd | hhd) | hhd
    · obtain ⟨kv, hkv, rfl⟩ := List.mem_map.1 hhd
      refine ⟨hcustom kv hkv, fun hnot => ?_⟩
      rw [ToServer.isSend_of_mem_customHeaders hkv] at hnot
      cases hnot
    · -- the length of a body, which only a SEND has, under a plain key
      by_cases hnul : nul ∈ msg.content.body.getD []
      · refine ⟨?_, fun hnot => ?_⟩
        · rw [ToServer.lengthHeader_of_mem hnul h.fieldSafe.custom_length, List.mem_singleton]
            at hhd
          have hplain : escape (asBytes "content-length") = asBytes "content-length" := by decide
          rw [hhd]
          exact escape_eq_self_iff.1 hplain
        · rw [ToServer.lengthHeader_of_not_isSend hnot] at hhd
          cases hhd
      · rw [ToServer.lengthHeader_of_not_mem hnul] at hhd
        cases hhd
    · exact hextra hd (List.mem_filter.1 hhd).1

/-- A SEND with delimiters in the values of its headers and a NUL in its body. -/
def delimitedSend : Message ToServer :=
  ⟨.send "/queue/a" none (some [("k", "a:b\n"), ("k", "\\")]) (some [104, nul]),
    [(asBytes "k", asBytes "c"), (asBytes "x", asBytes "C:\\temp")]⟩

lemma headersApart_delimitedSend : delimitedSend.HeadersApart := by
  refine ⟨rfl, by decide, ?_, ?_⟩
  · intro kv hkv
    have hkeys : ∀ kv ∈ delimitedSend.content.customHeaders, kv.1 = "k" := by decide
    rw [hkeys kv hkv]
    exact ⟨by decide, by decide, by decide⟩
  · intro hd hhd
    rcases List.mem_pair.1 hhd with rfl | rfl
    · exact ⟨"k", "c", rfl, by decide, by decide, by decide⟩
    · exact ⟨"x", "C:\\temp", rfl, by decide, by decide, by decide⟩

theorem reencodes_iff_delimitedSend :
    Reencodes delimitedSend ↔ PlainKeys delimitedSend.content.customHeaders ∧
      ∀ hd ∈ delimitedSend.extraHeaders, (∀ b ∈ hd.1, isSpecial b = false) ∧
        (delimitedSend.content.isSend = false → ∀ b ∈ hd.2, isSpecial b = false) :=
  reencodes_iff delimitedSend headersApart_delimitedSend

/-- **A value is escaped twice**: the extra header `k` of a BEGIN with the value `a:b` is encoded as
`a\cb` and, after decoding, as `a\\cb`. -/
theorem value_is_escaped_twice :
    let msg : Message ToServer := ⟨.begin "tx", [(asBytes "k", asBytes "a:b")]⟩
    msg.HeadersApart ∧ ¬ Reencodes msg := by
  have hapart : Message.HeadersApart ⟨.begin "tx", [(asBytes "k", asBytes "a:b")]⟩ := by
    refine ⟨rfl, by decide, fun _ hkv => absurd hkv List.not_mem_nil, fun hd hhd => ?_⟩
    rw [List.mem_singleton] at hhd
    exact ⟨"k", "a:b", hhd, by decide, by decide, by decide⟩
  refine ⟨hapart, fun h => ?_⟩
  have hsame := hapart.reencodes_iff_reread.1 h (asBytes "k", asBytes "a:b") (by decide)
  exact absurd hsame (by decide)

end AsyncStomp
