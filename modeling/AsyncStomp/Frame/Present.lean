/-
# Headers that are there

An optional field is looked up by its name, and a value that is not UTF-8 is taken for none.
`present_iff` says for which frames a header that is there is never treated as absent: where
the optional headers are UTF-8, or something else refuses the frame.
-/
import AsyncStomp.Frame.Scan

namespace AsyncStomp

/-! ### Looking headers up -/

/-- There is a header with this name, and the first one is UTF-8. -/
def Found (headers : List Header) (key : String) : Prop :=
  ∃ v, firstValue headers (asBytes key) = some v ∧ ValidUtf8 v

/-- The first header with this name is UTF-8, if there is one. -/
def Utf8IfPresent (headers : List Header) (key : String) : Prop :=
  ∀ v, firstValue headers (asBytes key) = some v → ValidUtf8 v

/-- Both the name and the value of a header are UTF-8. -/
def Header.IsUtf8 (h : Header) : Prop := ValidUtf8 h.1 ∧ ValidUtf8 h.2

section Lookup

variable {headers : List Header} {key : String}

lemma isSome_bind_of_utf8 {o : Option Bytes} {f : Bytes → Option String}
    (hf : ∀ v, (∃ s, f v = some s) ↔ ValidUtf8 v) :
    (∃ s, o.bind f = some s) ↔ ∃ v, o = some v ∧ ValidUtf8 v := by
  cases o with
  | none => simp
  | some v => simp [hf]

lemma exists_fetchHeader : (∃ s, fetchHeader headers key = some s) ↔ Found headers key :=
  isSome_bind_of_utf8 fun v => by rw [← validUtf8_iff_exists, validUtf8_unescapeHeaderValue]

lemma exists_fetchRawHeader : (∃ s, fetchRawHeader headers key = some s) ↔ Found headers key :=
  isSome_bind_of_utf8 fun v => by rw [← validUtf8_iff_exists]

lemma exists_orMissing {o : Option String} :
    (∃ s, orMissing key o = .ok s) ↔ ∃ s, o = some s := by
  cases o <;> simp [orMissing]

lemma exists_expectHeader : (∃ s, expectHeader headers key = .ok s) ↔ Found headers key := by
  rw [expectHeader, exists_orMissing, exists_fetchHeader]

lemma exists_expectRawHeader : (∃ s, expectRawHeader headers key = .ok s) ↔ Found headers key := by
  rw [expectRawHeader, exists_orMissing, exists_fetchRawHeader]

lemma exists_headerToString {h : Header} :
    (∃ kv, headerToString h.1 h.2 = .ok kv) ↔ h.IsUtf8 := by
  have hvalue : ValidUtf8 (unescapeHeaderValue h.2) ↔ _ := validUtf8_iff_exists
  rw [validUtf8_unescapeHeaderValue] at hvalue
  rw [Header.IsUtf8, hvalue, validUtf8_iff_exists, headerToString]
  cases fromUtf8 h.1 with
  | none => simp
  | some k => cases fromUtf8 (unescapeHeaderValue h.2) <;> simp

lemma exists_mapM_headerToString :
    (∃ l, headers.mapM (fun h => headerToString h.1 h.2) = .ok l) ↔ ∀ h ∈ headers, h.IsUtf8 := by
  simp only [mapM_eq_ok_iff]
  induction headers with
  | nil => simp
  | cons h hs ih =>
      rw [List.forall_mem_cons, ← ih, ← exists_headerToString]
      constructor
      · rintro ⟨l, hl⟩
        obtain ⟨kv, l', hkv, hl', -⟩ := List.forall₂_cons_left_iff.1 hl
        exact ⟨⟨kv, hkv⟩, l', hl'⟩
      · rintro ⟨⟨kv, hkv⟩, l, hl⟩
        exact ⟨kv :: l, .cons hkv hl⟩

lemma exists_optionalHeaders {keys : List String} :
    (∃ o, optionalHeaders headers keys = .ok o) ↔
      ∀ h ∈ otherHeaders headers keys, h.IsUtf8 := by
  rw [← exists_mapM_headerToString, optionalHeaders]
  simp only [exists_bind_eq_ok, exists_pure_eq_ok, and_true]

end Lookup

/-! ### Optional fields -/

/-- The optional fields of a message, each with the name of its header and whether it has a
value. -/
def ToServer.optionalFields : ToServer → List (String × Bool)
  | connect _ _ login passcode heartbeat =>
      [("login", login.isSome), ("passcode", passcode.isSome), ("heart-beat", heartbeat.isSome)]
  | send _ transaction _ _ => [("transaction", transaction.isSome)]
  | subscribe _ _ mode => [("ack", mode.isSome)]
  | ack _ transaction => [("transaction", transaction.isSome)]
  | nack _ transaction => [("transaction", transaction.isSome)]
  | disconnect receipt => [("receipt", receipt.isSome)]
  | _ => []

/-- As for the messages to a server. -/
def FromServer.optionalFields : FromServer → List (String × Bool)
  | connected _ session server heartbeat =>
      [("session", session.isSome), ("server", server.isSome), ("heart-beat", heartbeat.isSome)]
  | message _ _ _ ack _ _ => [("ack", ack.isSome)]
  | receipt _ => []
  | error text _ => [("message", text.isSome)]

/-- A header that is present is not treated as absent. -/
structure KeepsPresent (headers : List Header) (fields : List (String × Bool)) : Prop where
  /-- A field has no value exactly where no header has its name. -/
  absent_iff : ∀ p ∈ fields, p.2 = false ↔ ∀ h ∈ headers, h.1 ≠ asBytes p.1
  /-- A first header that is not UTF-8 does not go unnoticed. -/
  utf8 : ∀ p ∈ fields, Utf8IfPresent headers p.1

/-- What a conversion looks for: the names of its optional fields, and what makes it refuse a frame
beside them. -/
structure Reading where
  optional : List String
  refused : Prop

/-- The result of a conversion is what its reading says. -/
structure Reads {T : Type} (headers : List Header) (fields : T → List (String × Bool))
    (r : Reading) (result : Except Error (List String × T)) : Prop where
  ok_iff : (∃ x, result = .ok x) ↔ ¬ r.refused
  names : ∀ x, result = .ok x → (fields x.2).map Prod.fst = r.optional
  found : ∀ x, result = .ok x → ∀ p ∈ fields x.2, p.2 = true ↔ Found headers p.1

lemma keepsPresent_iff {headers : List Header} {fields : List (String × Bool)}
    (hfound : ∀ p ∈ fields, p.2 = true ↔ Found headers p.1) :
    KeepsPresent headers fields ↔ ∀ k ∈ fields.map Prod.fst, Utf8IfPresent headers k := by
  constructor
  · intro h k hk
    obtain ⟨p, hp, rfl⟩ := List.mem_map.1 hk
    exact h.utf8 p hp
  · intro h
    have hutf8 : ∀ p ∈ fields, Utf8IfPresent headers p.1 := fun p hp =>
      h p.1 (List.mem_map.2 ⟨p, hp, rfl⟩)
    refine ⟨fun p hp => ?_, hutf8⟩
    rw [← firstValue_eq_none, ← Bool.not_eq_true, hfound p hp]
    constructor
    · intro hnot
      cases hv : firstValue headers (asBytes p.1) with
      | none => rfl
      | some v => exact absurd ⟨v, hv, hutf8 p hp v hv⟩ hnot
    · rintro hnone ⟨v, hv, -⟩
      rw [hnone] at hv
      cases hv

/-- **What keeps a conversion from losing a header**: its optional headers are UTF-8, or it refuses
the frame anyway. -/
theorem Reads.keeps_iff {T : Type} {headers : List Header} {fields : T → List (String × Bool)}
    {r : Reading} {result : Except Error (List String × T)} (h : Reads headers fields r result) :
    (∀ x, result = .ok x → KeepsPresent headers (fields x.2)) ↔
      (∀ k ∈ r.optional, Utf8IfPresent headers k) ∨ r.refused := by
  have hkeeps : ∀ x, result = .ok x → (KeepsPresent headers (fields x.2) ↔
      ∀ k ∈ r.optional, Utf8IfPresent headers k) := fun x hx => by
    rw [keepsPresent_iff (h.found x hx), h.names x hx]
  constructor
  · intro hall
    by_cases hrefused : r.refused
    · exact Or.inr hrefused
    · obtain ⟨x, hx⟩ := h.ok_iff.2 hrefused
      exact Or.inl ((hkeeps x hx).1 (hall x hx))
  · rintro (hutf8 | hrefused) x hx
    · exact (hkeeps x hx).2 hutf8
    · exact absurd hrefused (h.ok_iff.1 ⟨x, hx⟩)

/-! ### What each command reads -/

section Commands

variable {headers : List Header}

/-- The optional fields are those that were looked up. -/
lemma Reads.of_fetch {T : Type} {fields : T → List (String × Bool)} {r : Reading}
    {result : Except Error (List String × T)} {fetch : List Header → String → Option String}
    (hfetch : ∀ k, (∃ s, fetch headers k = some s) ↔ Found headers k)
    (hok : (∃ x, result = .ok x) ↔ ¬ r.refused)
    (hfields : ∀ x, result = .ok x →
      fields x.2 = r.optional.map fun k => (k, (fetch headers k).isSome)) :
    Reads headers fields r result := by
  refine ⟨hok, fun x hx => ?_, fun x hx p hp => ?_⟩
  · rw [hfields x hx, List.map_map]
    exact List.map_id _
  · rw [hfields x hx] at hp
    obtain ⟨k, -, rfl⟩ := List.mem_map.1 hp
    rw [← hfetch, ← Option.isSome_iff_exists]

lemma connectContent_reads :
    Reads headers ToServer.optionalFields
      ⟨["login", "passcode", "heart-beat"],
        ¬ ((∃ hb, optionalHeartbeat (fetchRawHeader headers "heart-beat") = .ok hb) ∧
          Found headers "accept-version" ∧ Found headers "host")⟩
      (connectContent headers) := by
  refine .of_fetch (fun _ => exists_fetchRawHeader) ?_ ?_
  · rw [not_not, ← exists_expectRawHeader, ← exists_expectRawHeader, connectContent]
    simp only [exists_bind_eq_ok, exists_pure_eq_ok, and_true, exists_and_right]
  · intro x hx
    obtain ⟨hb, hhb, hx⟩ := except_bind_eq_ok.1 hx
    obtain ⟨version, -, hx⟩ := except_bind_eq_ok.1 hx
    obtain ⟨host, -, hx⟩ := except_bind_eq_ok.1 hx
    cases hx
    have hsome : hb.isSome = (fetchRawHeader headers "heart-beat").isSome := by
      cases htext : fetchRawHeader headers "heart-beat" with
      | none =>
          rw [htext] at hhb
          cases hhb
          rfl
      | some s =>
          rw [htext, optionalHeartbeat] at hhb
          cases hparse : parseHeartbeat s with
          | error e =>
              rw [hparse] at hhb
              cases hhb
          | ok v =>
              rw [hparse] at hhb
              cases hhb
              rfl
    simp [ToServer.optionalFields, hsome]

lemma sendContent_reads (body : Option Bytes) :
    Reads headers ToServer.optionalFields
      ⟨["transaction"], ¬ (Found headers "destination" ∧
        ∀ h ∈ otherHeaders headers ["destination", "transaction"], h.IsUtf8)⟩
      (sendContent headers body) := by
  refine .of_fetch (fun _ => exists_fetchHeader) ?_ ?_
  · rw [not_not, ← exists_expectHeader, ← exists_optionalHeaders, sendContent]
    simp only [exists_bind_eq_ok, exists_pure_eq_ok, and_true, exists_and_right]
  · intro x hx
    obtain ⟨destination, -, hx⟩ := except_bind_eq_ok.1 hx
    obtain ⟨o, -, hx⟩ := except_bind_eq_ok.1 hx
    cases hx
    rfl

/-- Where the mode of a SUBSCRIBE is read at all. -/
lemma ackMode_isSome {o : Option String} {mode : Option AckMode} (h : ackMode o = .ok mode) :
    mode.isSome = o.isSome := by
  cases o with
  | none =>
      cases h
      rfl
  | some s =>
      rw [ackMode] at h
      split_ifs at h <;> cases h <;> rfl

lemma subscribeContent_reads :
    Reads headers ToServer.optionalFields
      ⟨["ack"], ¬ (Found headers "destination" ∧ Found headers "id" ∧
        ∃ mode, ackMode (fetchHeader headers "ack") = .ok mode)⟩
      (subscribeContent headers) := by
  refine .of_fetch (fun _ => exists_fetchHeader) ?_ ?_
  · rw [not_not, ← exists_expectHeader, ← exists_expectHeader, subscribeContent]
    simp only [exists_bind_eq_ok, exists_pure_eq_ok, and_true, exists_and_right]
  · intro x hx
    obtain ⟨destination, -, hx⟩ := except_bind_eq_ok.1 hx
    obtain ⟨id, -, hx⟩ := except_bind_eq_ok.1 hx
    obtain ⟨mode, hmode, hx⟩ := except_bind_eq_ok.1 hx
    cases hx
    simp [ToServer.optionalFields, ackMode_isSome hmode]

/-- A conversion that looks for one required header, and for optional ones. -/
lemma reads_expect {T : Type} {fields : T → List (String × Bool)}
    {fetch : List Header → String → Option String}
    {expect : List Header → String → Except Error String}
    (hfetch : ∀ k, (∃ s, fetch headers k = some s) ↔ Found headers k)
    (hexpect : ∀ k, (∃ s, expect headers k = .ok s) ↔ Found headers k) (key : String)
    (keys optional : List String) {make : String → T}
    (hmake : ∀ s, fields (make s) = optional.map fun k => (k, (fetch headers k).isSome)) :
    Reads headers fields ⟨optional, ¬ Found headers key⟩
      (expect headers key >>= fun s => pure (keys, make s)) := by
  refine .of_fetch hfetch ?_ ?_
  · rw [not_not, ← hexpect]
    simp only [exists_bind_eq_ok, exists_pure_eq_ok, and_true]
  · intro x hx
    obtain ⟨s, -, hx⟩ := except_bind_eq_ok.1 hx
    cases hx
    exact hmake s

/-- A conversion that looks for optional headers only. -/
lemma reads_pure {T : Type} {fields : T → List (String × Bool)} (keys optional : List String)
    {content : T}
    (hcontent : fields content = optional.map fun k => (k, (fetchHeader headers k).isSome)) :
    Reads headers fields ⟨optional, False⟩ (pure (keys, content)) := by
  refine .of_fetch (fun _ => exists_fetchHeader) ?_ ?_
  · exact ⟨fun _ => id, fun _ => ⟨_, rfl⟩⟩
  · rintro x ⟨⟩
    exact hcontent

lemma messageContent_reads (body : Option Bytes) :
    Reads headers FromServer.optionalFields
      ⟨["ack"], ¬ (Found headers "destination" ∧ Found headers "message-id" ∧
        Found headers "subscription" ∧ ∀ h ∈ headers, h.IsUtf8)⟩
      (messageContent headers body) := by
  refine .of_fetch (fun _ => exists_fetchHeader) ?_ ?_
  · rw [not_not, ← exists_expectHeader, ← exists_expectHeader, ← exists_expectHeader,
      ← exists_mapM_headerToString, messageContent]
    simp only [exists_bind_eq_ok, exists_pure_eq_ok, and_true, exists_and_right]
    rfl
  · intro x hx
    obtain ⟨destination, -, hx⟩ := except_bind_eq_ok.1 hx
    obtain ⟨id, -, hx⟩ := except_bind_eq_ok.1 hx
    obtain ⟨subscription, -, hx⟩ := except_bind_eq_ok.1 hx
    obtain ⟨l, -, hx⟩ := except_bind_eq_ok.1 hx
    cases hx
    rfl

end Commands

/-! ### Frames -/

namespace Frame

/-- What the conversion of a client's frame looks for. -/
def clientReading (f : Frame) : Reading :=
  let h := f.headers
  if f.hasCommand ["STOMP", "CONNECT", "stomp", "connect"] then
    ⟨["login", "passcode", "heart-beat"],
      ¬ ((∃ hb, optionalHeartbeat (fetchRawHeader h "heart-beat") = .ok hb) ∧
        Found h "accept-version" ∧ Found h "host")⟩
  else if f.hasCommand ["DISCONNECT", "disconnect"] then ⟨["receipt"], False⟩
  else if f.hasCommand ["SEND", "send"] then
    ⟨["transaction"], ¬ (Found h "destination" ∧
      ∀ hd ∈ otherHeaders h ["destination", "transaction"], hd.IsUtf8)⟩
  else if f.hasCommand ["SUBSCRIBE", "subscribe"] then
    ⟨["ack"], ¬ (Found h "destination" ∧ Found h "id" ∧
      ∃ mode, ackMode (fetchHeader h "ack") = .ok mode)⟩
  else if f.hasCommand ["UNSUBSCRIBE", "unsubscribe"] then ⟨[], ¬ Found h "id"⟩
  else if f.hasCommand ["ACK", "ack"] then ⟨["transaction"], ¬ Found h "id"⟩
  else if f.hasCommand ["NACK", "nack"] then ⟨["transaction"], ¬ Found h "id"⟩
  else if f.hasCommand ["BEGIN", "begin"] then ⟨[], ¬ Found h "transaction"⟩
  else if f.hasCommand ["COMMIT", "commit"] then ⟨[], ¬ Found h "transaction"⟩
  else if f.hasCommand ["ABORT", "abort"] then ⟨[], ¬ Found h "transaction"⟩
  else ⟨[], True⟩

/-- What the conversion of a server's frame looks for. -/
def serverReading (f : Frame) : Reading :=
  let h := f.headers
  if f.hasCommand ["CONNECTED", "connected"] then
    ⟨["session", "server", "heart-beat"], ¬ Found h "version"⟩
  else if f.hasCommand ["MESSAGE", "message"] then
    ⟨["ack"], ¬ (Found h "destination" ∧ Found h "message-id" ∧ Found h "subscription" ∧
      ∀ hd ∈ h, hd.IsUtf8)⟩
  else if f.hasCommand ["RECEIPT", "receipt"] then ⟨[], ¬ Found h "receipt-id"⟩
  else if f.hasCommand ["ERROR", "error"] then ⟨["message"], False⟩
  else ⟨[], True⟩

lemma reads_unknown {T : Type} {headers : List Header} {fields : T → List (String × Bool)}
    (e : Error) : Reads headers fields ⟨[], True⟩ (.error e) := by
  refine ⟨⟨?_, fun h => absurd trivial h⟩, ?_, ?_⟩
  · rintro ⟨x, ⟨⟩⟩
  · rintro x ⟨⟩
  · rintro x ⟨⟩

/-- The commands are told apart in the same way. -/
lemma reads_ite {T : Type} {headers : List Header} {fields : T → List (String × Bool)} {b : Bool}
    {r r' : Reading} {x x' : Except Error (List String × T)} (h : Reads headers fields r x)
    (h' : Reads headers fields r' x') :
    Reads headers fields (if b then r else r') (if b then x else x') := by
  cases b with
  | true => exact h
  | false => exact h'

section

variable {headers : List Header} {T : Type} {fields : T → List (String × Bool)}

lemma reads_expectHeader (key : String) (keys optional : List String) {make : String → T}
    (hmake : ∀ s, fields (make s) = optional.map fun k => (k, (fetchHeader headers k).isSome)) :
    Reads headers fields ⟨optional, ¬ Found headers key⟩
      (expectHeader headers key >>= fun s => pure (keys, make s)) :=
  reads_expect (fun _ => exists_fetchHeader) (fun _ => exists_expectHeader) key keys optional hmake

end

lemma clientContent_reads (f : Frame) :
    Reads f.headers ToServer.optionalFields f.clientReading f.clientContent := by
  refine reads_ite connectContent_reads <| reads_ite (reads_pure _ _ rfl) <|
    reads_ite (sendContent_reads _) <| reads_ite subscribeContent_reads <| reads_ite ?_ <|
      reads_ite ?_ <| reads_ite ?_ <| reads_ite ?_ <| reads_ite ?_ <| reads_ite ?_ <|
        reads_unknown _
  all_goals exact reads_expectHeader _ _ _ fun _ => rfl

lemma serverContent_reads (f : Frame) :
    Reads f.headers FromServer.optionalFields f.serverReading f.serverContent := by
  refine reads_ite ?_ <| reads_ite (messageContent_reads _) <| reads_ite ?_ <|
    reads_ite (reads_pure _ _ rfl) <| reads_unknown _
  · exact reads_expect (fun _ => exists_fetchRawHeader) (fun _ => exists_expectRawHeader) _ _ _
      fun _ => rfl
  · exact reads_expectHeader _ _ _ fun _ => rfl

/-- What holds of every message is what holds of every content. -/
lemma forall_content_iff {T : Type} (x : Except Error (List String × T)) (P : T → Prop)
    (others : List String → List Header) :
    (∀ msg : Message T, (x >>= fun c => pure ⟨c.2, others c.1⟩) = .ok msg → P msg.content) ↔
      ∀ c, x = .ok c → P c.2 := by
  constructor
  · intro h c hc
    exact h ⟨c.2, others c.1⟩ (except_bind_eq_ok.2 ⟨c, hc, rfl⟩)
  · intro h msg hmsg
    obtain ⟨c, hc, hpure⟩ := except_bind_eq_ok.1 hmsg
    cases hpure
    exact h c hc

/-- **When a header that is present is never treated as absent**: the optional headers are UTF-8, or
the frame is refused for something else. -/
theorem present_iff (f : Frame) :
    ((∀ msg, f.toServerMsg = .ok msg → KeepsPresent f.headers msg.content.optionalFields) ↔
        (∀ k ∈ f.serverReading.optional, Utf8IfPresent f.headers k) ∨ f.serverReading.refused) ∧
      ((∀ msg, f.toClientMsg = .ok msg → KeepsPresent f.headers msg.content.optionalFields) ↔
        (∀ k ∈ f.clientReading.optional, Utf8IfPresent f.headers k) ∨ f.clientReading.refused) := by
  rw [← f.serverContent_reads.keeps_iff, ← f.clientContent_reads.keeps_iff]
  constructor
  · exact forall_content_iff f.serverContent (fun c => KeepsPresent f.headers c.optionalFields) _
  · exact forall_content_iff f.clientContent (fun c => KeepsPresent f.headers c.optionalFields) _

/-- **A heart-beat that is not UTF-8 is lost**: the CONNECTED is taken for one without. -/
theorem malformed_heartbeat_is_lost :
    let f : Frame := ⟨asBytes "CONNECTED",
      [(asBytes "version", asBytes "1.2"), (asBytes "heart-beat", [255])], none⟩
    f.toServerMsg = .ok ⟨.connected "1.2" none none none, []⟩ ∧
      ¬ ∀ msg, f.toServerMsg = .ok msg → KeepsPresent f.headers msg.content.optionalFields := by
  have hmsg : Frame.toServerMsg ⟨asBytes "CONNECTED",
      [(asBytes "version", asBytes "1.2"), (asBytes "heart-beat", [255])], none⟩ =
        .ok ⟨.connected "1.2" none none none, []⟩ := by
    decide +kernel
  refine ⟨hmsg, fun h => ?_⟩
  have habsent := (h _ hmsg).absent_iff ("heart-beat", false) (by decide)
  exact habsent.1 rfl (asBytes "heart-beat", [255]) (by simp) rfl

end Frame

end AsyncStomp
