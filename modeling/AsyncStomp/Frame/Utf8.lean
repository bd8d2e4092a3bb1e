/-
# Unescaping and UTF-8

`fetch_header` and `header_to_string` unescape the bytes of a value first and ask
afterwards whether they are UTF-8.  Checking the bytes on the wire and unescaping the
characters comes to the same (`fromUtf8_unescapeHeaderValue`), although an undefined
sequence takes only the first byte of the character behind the backslash and the scan goes
on inside that character.  So a conversion complains of a header only if the bytes on the
wire give it reason to, and reads no text but from bytes that are UTF-8 there
(`toClientMsg_ends`, `toServerMsg_ends`).
-/
import AsyncStomp.Frame.Present

namespace AsyncStomp

/-! ### Unescaping characters -/

/-- What a backslash and the character behind it are read as. -/
def unescapePair (c : Char) : List Char :=
  if c = 'r' then ['\r']
  else if c = 'n' then ['\n']
  else if c = 'c' then [':']
  else if c = '\\' then ['\\']
  else ['\\', c]

/-- Unescaping a text character by character. -/
def unescapeChars : List Char → List Char
  | [] => []
  | [c] => [c]
  | c :: d :: rest =>
      if c = '\\' then unescapePair d ++ unescapeChars rest else c :: unescapeChars (d :: rest)

/-- What a value that is UTF-8 is meant to be read as. -/
def unescapeString (s : String) : String := String.ofList (unescapeChars s.toList)

/-- Bytes without a backslash are copied, and the scan goes on behind them. -/
lemma unescapeHeaderValue_append {xs : Bytes} (h : ∀ b ∈ xs, b ≠ backslash) (ys : Bytes) :
    unescapeHeaderValue (xs ++ ys) = xs ++ unescapeHeaderValue ys := by
  induction xs with
  | nil => rfl
  | cons b xs ih =>
      rw [List.cons_append, unescapeHeaderValue_cons (h b (by simp)),
        ih fun c hc => h c (by simp [hc]), List.cons_append]

lemma ne_backslash_of_mem_utf8EncodeChar {c : Char} (h : c ≠ '\\') {b : UInt8}
    (hb : b ∈ String.utf8EncodeChar c) : b ≠ backslash := by
  rintro rfl
  exact h (eq_of_mem_utf8EncodeChar (d := '\\') (by decide) hb)

/-- A backslash in front of a character is read with the whole of it, although the scan
takes no more than its first byte. -/
lemma unescapeHeaderValue_pair_char (c : Char) (rest : Bytes) :
    unescapeHeaderValue (backslash :: (String.utf8EncodeChar c ++ rest)) =
      (unescapePair c).flatMap String.utf8EncodeChar ++ unescapeHeaderValue rest := by
  by_cases hr : c = 'r'
  · subst hr; rfl
  by_cases hn : c = 'n'
  · subst hn; rfl
  by_cases hc : c = 'c'
  · subst hc; rfl
  by_cases hbackslash : c = '\\'
  · subst hbackslash; rfl
  have hpair : unescapePair c = ['\\', c] := by simp [unescapePair, hr, hn, hc, hbackslash]
  obtain ⟨b, bs, henc⟩ := List.exists_cons_of_ne_nil (String.utf8EncodeChar_ne_nil (c := c))
  have hmem : b ∈ String.utf8EncodeChar c := by rw [henc]; exact List.mem_cons_self
  have hundefined : ¬ (EscapePiece.pair b).Defined := by
    rintro (rfl | rfl | rfl | rfl)
    · exact hr (eq_of_mem_utf8EncodeChar (d := 'r') (by decide) hmem)
    · exact hn (eq_of_mem_utf8EncodeChar (d := 'n') (by decide) hmem)
    · exact hc (eq_of_mem_utf8EncodeChar (d := 'c') (by decide) hmem)
    · exact hbackslash (eq_of_mem_utf8EncodeChar (d := '\\') (by decide) hmem)
  -- the scan resumes inside the character, where no backslash can stand
  have hcopied : ∀ d ∈ bs, d ≠ backslash := fun d hd =>
    ne_backslash_of_mem_utf8EncodeChar hbackslash (henc ▸ List.mem_cons_of_mem b hd)
  rw [hpair, henc, List.cons_append, unescapeHeaderValue_pair,
    EscapePiece.meaning_of_not_defined hundefined, unescapeHeaderValue_append hcopied,
    List.flatMap_cons, List.flatMap_singleton, henc]
  rfl

/-- **Unescaping the bytes of a text is unescaping its characters.** -/
theorem unescapeHeaderValue_flatMap (cs : List Char) :
    unescapeHeaderValue (cs.flatMap String.utf8EncodeChar) =
      (unescapeChars cs).flatMap String.utf8EncodeChar := by
  induction cs using unescapeChars.induct with
  | case1 => rfl
  | case2 c =>
      by_cases hc : c = '\\'
      · subst hc; rfl
      · have hcopied := unescapeHeaderValue_append
          (fun b hb => ne_backslash_of_mem_utf8EncodeChar hc hb) []
        rw [List.append_nil] at hcopied
        rw [unescapeChars, List.flatMap_singleton, hcopied]
        exact List.append_nil _
  | case3 d rest ih =>
      rw [unescapeChars, if_pos rfl, List.flatMap_append, ← ih, List.flatMap_cons,
        List.flatMap_cons, ← unescapeHeaderValue_pair_char]
      rfl
  | case4 c d rest hc ih =>
      rw [List.flatMap_cons,
        unescapeHeaderValue_append fun b hb => ne_backslash_of_mem_utf8EncodeChar hc hb, ih,
        unescapeChars, if_neg hc, List.flatMap_cons]

@[simp] lemma asBytes_unescapeString (s : String) :
    asBytes (unescapeString s) = unescapeHeaderValue (asBytes s) := by
  rw [unescapeString, asBytes_ofList, ← unescapeHeaderValue_flatMap, ← asBytes_eq_flatMap]

/-- **It makes no difference whether a value is checked before it is unescaped or after.** -/
theorem fromUtf8_unescapeHeaderValue (v : Bytes) :
    fromUtf8 (unescapeHeaderValue v) = (fromUtf8 v).map unescapeString := by
  cases hv : fromUtf8 v with
  | none =>
      rw [fromUtf8_eq_none] at hv
      rw [Option.map_none, fromUtf8_eq_none, validUtf8_unescapeHeaderValue]
      exact hv
  | some s =>
      rw [fromUtf8_eq_some] at hv
      rw [Option.map_some, hv, ← asBytes_unescapeString, fromUtf8_asBytes]

-- the scan takes the first byte of the character and goes on with the second
example : fromUtf8 (unescapeHeaderValue (asBytes "\\é\\c")) = some "\\é:" := by decide +kernel

/-! ### Looking headers up -/

/-- `fetch_header` unescapes the text that `fetch_raw_header` reads. -/
lemma fetchHeader_eq (headers : List Header) (key : String) :
    fetchHeader headers key = (fetchRawHeader headers key).map unescapeString := by
  rw [fetchHeader, fetchRawHeader, Option.map_bind]
  exact congrArg _ (funext fromUtf8_unescapeHeaderValue)

/-- `header_to_string` the other way round: the bytes on the wire are checked, and then the
characters of the value are unescaped. -/
def checkedHeader (key value : Bytes) : Except Error (String × String) :=
  match fromUtf8 key with
  | none => .error .headerNameNotUtf8
  | some k =>
      match fromUtf8 value with
      | none => .error (.headerValueNotUtf8 k)
      | some v => .ok (k, unescapeString v)

/-- `header_to_string` may as well check first. -/
lemma headerToString_eq (key value : Bytes) :
    headerToString key value = checkedHeader key value := by
  rw [headerToString, checkedHeader, fromUtf8_unescapeHeaderValue]
  cases fromUtf8 key with
  | none => rfl
  | some k => cases fromUtf8 value <;> rfl

/-! ### Results and errors -/

section Ends

variable {ε α β : Type} {mid : α → Prop} {fails : ε → Prop}

/-- A computation returns only what satisfies `post`, and ends in no error but such that `fails`
holds. -/
def Ends (post : α → Prop) (fails : ε → Prop) : Except ε α → Prop
  | .ok a => post a
  | .error e => fails e

lemma Ends.error {x : Except ε α} {e : ε} (h : Ends mid fails x) (hx : x = .error e) : fails e := by
  rw [hx] at h
  exact h

lemma Ends.bind {x : Except ε α} {f : α → Except ε β} {post : β → Prop} (hx : Ends mid fails x)
    (hf : ∀ a, mid a → Ends post fails (f a)) : Ends post fails (x >>= f) := by
  cases x with
  | error e => exact hx
  | ok a => exact hf a hx

lemma ends_mapM {xs : List β} {f : β → Except ε α} (hf : ∀ x ∈ xs, Ends mid fails (f x)) :
    Ends (fun ys => ∀ y ∈ ys, mid y) fails (xs.mapM f) := by
  induction xs with
  | nil => exact fun y hy => absurd hy List.not_mem_nil
  | cons x xs ih =>
      rw [List.mapM_cons]
      refine (hf x List.mem_cons_self).bind fun y hy => ?_
      refine (ih fun x' hx' => hf x' (List.mem_cons_of_mem x hx')).bind fun ys hys => ?_
      exact List.forall_mem_cons.2 ⟨hy, hys⟩

lemma ends_ite {b : Bool} {x y : Except ε α} (hx : Ends mid fails x) (hy : Ends mid fails y) :
    Ends mid fails (if b then x else y) := by
  cases b with
  | true => exact hx
  | false => exact hy

end Ends

/-! ### Texts -/

/-- The texts of a list of headers. -/
def pairTexts (headers : List (String × String)) : List String :=
  headers.flatMap fun kv => [kv.1, kv.2]

/-- The texts that a message to a server is made of. -/
def ToServer.texts : ToServer → List String
  | connect acceptVersion host login passcode _ =>
      acceptVersion :: host :: (login.toList ++ passcode.toList)
  | send destination transaction headers _ =>
      destination :: (transaction.toList ++ pairTexts (headers.getD []))
  | subscribe destination id _ => [destination, id]
  | unsubscribe id => [id]
  | ack id transaction => id :: transaction.toList
  | nack id transaction => id :: transaction.toList
  | begin transaction => [transaction]
  | commit transaction => [transaction]
  | abort transaction => [transaction]
  | disconnect receipt => receipt.toList

/-- As for the messages to a server. -/
def FromServer.texts : FromServer → List String
  | connected version session server heartbeat =>
      version :: (session.toList ++ (server.toList ++ heartbeat.toList))
  | message destination messageId subscription ack headers _ =>
      destination :: messageId :: subscription :: (ack.toList ++ pairTexts headers)
  | receipt receiptId => [receiptId]
  | error text _ => text.toList

/-- A text is the name of a header, or its value as it is on the wire or with the escape sequences
read.  What it is read from is UTF-8 on the wire. -/
def ReadFrom (headers : List Header) (s : String) : Prop :=
  ∃ h ∈ headers, h.1 = asBytes s ∨ ∃ t, h.2 = asBytes t ∧ (s = t ∨ s = unescapeString t)

/-- What an error says of a header is true of the bytes on the wire: a header that is reported
missing is not there or not UTF-8, and what is reported not to be UTF-8 is not. -/
def Error.Justified (headers : List Header) : Error → Prop
  | .missingHeader key => ∀ v, firstValue headers (asBytes key) = some v → ¬ ValidUtf8 v
  | .headerNameNotUtf8 => ∃ h ∈ headers, ¬ ValidUtf8 h.1
  | .headerValueNotUtf8 key => ∃ h ∈ headers, h.1 = asBytes key ∧ ¬ ValidUtf8 h.2
  -- the others are about the command, an acknowledgment mode or a heart-beat
  | _ => True

/-- Where everything on the wire is UTF-8, a header that is there is neither missed nor found
fault with. -/
lemma Error.Justified.of_utf8 {headers : List Header} {e : Error} (h : e.Justified headers)
    (hutf8 : ∀ hd ∈ headers, hd.IsUtf8) :
    e ≠ .headerNameNotUtf8 ∧ (∀ key, e ≠ .headerValueNotUtf8 key) ∧
      ∀ key, e = .missingHeader key → firstValue headers (asBytes key) = none := by
  refine ⟨?_, ?_, ?_⟩
  · rintro rfl
    obtain ⟨hd, hmem, hname⟩ := h
    exact hname (hutf8 hd hmem).1
  · rintro key rfl
    obtain ⟨hd, hmem, -, hvalue⟩ := h
    exact hvalue (hutf8 hd hmem).2
  · rintro key rfl
    cases hv : firstValue headers (asBytes key) with
    | none => rfl
    | some v => exact absurd (hutf8 _ (mem_of_firstValue hv)).2 (h v hv)

section Conversions

variable {h : List Header} {key : String}

lemma readFrom_of_fetchRawHeader {s : String} (hs : fetchRawHeader h key = some s) :
    ReadFrom h s := by
  obtain ⟨v, hv, hs⟩ := Option.bind_eq_some_iff.1 hs
  exact ⟨_, mem_of_firstValue hv, Or.inr ⟨s, fromUtf8_eq_some.1 hs, Or.inl rfl⟩⟩

lemma readFrom_of_fetchHeader {s : String} (hs : fetchHeader h key = some s) : ReadFrom h s := by
  rw [fetchHeader_eq] at hs
  obtain ⟨t, ht, rfl⟩ := Option.map_eq_some_iff.1 hs
  obtain ⟨v, hv, ht⟩ := Option.bind_eq_some_iff.1 ht
  exact ⟨_, mem_of_firstValue hv, Or.inr ⟨t, fromUtf8_eq_some.1 ht, Or.inr rfl⟩⟩

/-- A required header is read, or there is none that is UTF-8. -/
lemma ends_orMissing {fetch : List Header → String → Option String}
    (hread : ∀ {s}, fetch h key = some s → ReadFrom h s)
    (hfound : (∃ s, fetch h key = some s) ↔ Found h key) :
    Ends (ReadFrom h) (Error.Justified h) (orMissing key (fetch h key)) := by
  cases hv : fetch h key with
  | some s => exact hread hv
  | none =>
      intro v hfirst hutf8
      obtain ⟨s, hs⟩ := hfound.2 ⟨v, hfirst, hutf8⟩
      rw [hv] at hs
      cases hs

lemma ends_expectHeader : Ends (ReadFrom h) (Error.Justified h) (expectHeader h key) :=
  ends_orMissing readFrom_of_fetchHeader exists_fetchHeader

lemma ends_expectRawHeader : Ends (ReadFrom h) (Error.Justified h) (expectRawHeader h key) :=
  ends_orMissing readFrom_of_fetchRawHeader exists_fetchRawHeader

lemma ends_headerToString {hd : Header} (hmem : hd ∈ h) :
    Ends (fun kv => ReadFrom h kv.1 ∧ ReadFrom h kv.2) (Error.Justified h)
      (headerToString hd.1 hd.2) := by
  rw [headerToString_eq, checkedHeader]
  cases hk : fromUtf8 hd.1 with
  | none => exact ⟨hd, hmem, fromUtf8_eq_none.1 hk⟩
  | some k =>
      have hkey := fromUtf8_eq_some.1 hk
      cases hv : fromUtf8 hd.2 with
      | none => exact ⟨hd, hmem, hkey, fromUtf8_eq_none.1 hv⟩
      | some v =>
          exact ⟨⟨hd, hmem, Or.inl hkey⟩, hd, hmem, Or.inr ⟨v, fromUtf8_eq_some.1 hv, Or.inr rfl⟩⟩

lemma forall_mem_pairTexts {headers : List (String × String)} {P : String → Prop} :
    (∀ s ∈ pairTexts headers, P s) ↔ ∀ kv ∈ headers, P kv.1 ∧ P kv.2 := by
  rw [pairTexts, List.forall_mem_flatMap]
  simp

/-- Headers of the frame are converted one by one. -/
lemma ends_headers {hs : List Header} (hsub : hs ⊆ h) :
    Ends (fun l => ∀ s ∈ pairTexts l, ReadFrom h s) (Error.Justified h)
      (hs.mapM fun hd => headerToString hd.1 hd.2) := by
  simp only [forall_mem_pairTexts]
  exact ends_mapM fun hd hmem => ends_headerToString (hsub hmem)

lemma ends_optionalHeaders {keys : List String} :
    Ends (fun o => ∀ s ∈ pairTexts (o.getD []), ReadFrom h s) (Error.Justified h)
      (optionalHeaders h keys) := by
  refine (ends_headers (List.filter_subset_self _)).bind fun l hl => ?_
  cases l with
  | nil => exact hl
  | cons kv l => exact hl

lemma forall_mem_fetchHeader : ∀ s ∈ (fetchHeader h key).toList, ReadFrom h s :=
  fun _ hs => readFrom_of_fetchHeader (Option.mem_toList.1 hs)

lemma forall_mem_fetchRawHeader : ∀ s ∈ (fetchRawHeader h key).toList, ReadFrom h s :=
  fun _ hs => readFrom_of_fetchRawHeader (Option.mem_toList.1 hs)

lemma ends_heartbeatNumber (s : Bytes) :
    Ends (fun _ => True) (Error.Justified h) (heartbeatNumber s) := by
  rw [heartbeatNumber]
  cases parseU32 s <;> exact trivial

/-- A heart-beat is refused for what it says, not for its encoding. -/
lemma ends_optionalHeartbeat (o : Option String) :
    Ends (fun _ => True) (Error.Justified h) (optionalHeartbeat o) := by
  cases o with
  | none => exact trivial
  | some hb =>
      have hparse : Ends (fun _ => True) (Error.Justified h) (parseHeartbeat hb) := by
        rw [parseHeartbeat]
        cases (asBytes hb).dropWhile (· != comma) with
        | nil => exact trivial
        | cons b right =>
            exact (ends_heartbeatNumber _).bind fun left _ =>
              (ends_heartbeatNumber right).bind fun right _ => trivial
      rw [optionalHeartbeat]
      cases hb' : parseHeartbeat hb with
      | ok v => exact trivial
      | error e =>
          rw [hb'] at hparse
          exact hparse

lemma ends_ackMode (o : Option String) :
    Ends (fun _ => True) (Error.Justified h) (ackMode o) := by
  cases o with
  | none => exact trivial
  | some s =>
      rw [ackMode]
      split_ifs <;> exact trivial

lemma connectContent_ends :
    Ends (fun x => ∀ s ∈ x.2.texts, ReadFrom h s) (Error.Justified h) (connectContent h) := by
  refine (ends_optionalHeartbeat _).bind fun heartbeat _ => ?_
  refine ends_expectRawHeader.bind fun acceptVersion hversion => ?_
  refine ends_expectRawHeader.bind fun host hhost => ?_
  refine List.forall_mem_cons.2 ⟨hversion, List.forall_mem_cons.2 ⟨hhost, ?_⟩⟩
  exact List.forall_mem_append.2 ⟨forall_mem_fetchRawHeader, forall_mem_fetchRawHeader⟩

lemma sendContent_ends (body : Option Bytes) :
    Ends (fun x => ∀ s ∈ x.2.texts, ReadFrom h s) (Error.Justified h) (sendContent h body) := by
  refine ends_expectHeader.bind fun destination hdestination => ?_
  refine ends_optionalHeaders.bind fun headers hheaders => ?_
  refine List.forall_mem_cons.2 ⟨hdestination, ?_⟩
  exact List.forall_mem_append.2 ⟨forall_mem_fetchHeader, hheaders⟩

lemma subscribeContent_ends :
    Ends (fun x => ∀ s ∈ x.2.texts, ReadFrom h s) (Error.Justified h) (subscribeContent h) := by
  refine ends_expectHeader.bind fun destination hdestination => ?_
  refine ends_expectHeader.bind fun id hid => ?_
  refine (ends_ackMode _).bind fun mode _ => ?_
  exact List.forall_mem_cons.2 ⟨hdestination, List.forall_mem_singleton.2 hid⟩

lemma unsubscribeContent_ends :
    Ends (fun x => ∀ s ∈ x.2.texts, ReadFrom h s) (Error.Justified h) (unsubscribeContent h) :=
  ends_expectHeader.bind fun _ hid => List.forall_mem_singleton.2 hid

/-- An ACK and a NACK are made of the same texts. -/
lemma ackContent_ends {make : String → Option String → ToServer}
    (hmake : ∀ id transaction, (make id transaction).texts = id :: transaction.toList) :
    Ends (fun x => ∀ s ∈ x.2.texts, ReadFrom h s) (Error.Justified h) (ackContent make h) := by
  refine ends_expectHeader.bind fun id hid => ?_
  show ∀ s ∈ (make id (fetchHeader h "transaction")).texts, ReadFrom h s
  rw [hmake]
  exact List.forall_mem_cons.2 ⟨hid, forall_mem_fetchHeader⟩

/-- As for a BEGIN, a COMMIT and an ABORT. -/
lemma transactionContent_ends {make : String → ToServer}
    (hmake : ∀ transaction, (make transaction).texts = [transaction]) :
    Ends (fun x => ∀ s ∈ x.2.texts, ReadFrom h s) (Error.Justified h)
      (transactionContent make h) := by
  refine ends_expectHeader.bind fun transaction htransaction => ?_
  show ∀ s ∈ (make transaction).texts, ReadFrom h s
  rw [hmake]
  exact List.forall_mem_singleton.2 htransaction

lemma connectedContent_ends :
    Ends (fun x => ∀ s ∈ x.2.texts, ReadFrom h s) (Error.Justified h) (connectedContent h) := by
  refine ends_expectRawHeader.bind fun version hversion => ?_
  refine List.forall_mem_cons.2 ⟨hversion, ?_⟩
  exact List.forall_mem_append.2 ⟨forall_mem_fetchRawHeader,
    List.forall_mem_append.2 ⟨forall_mem_fetchRawHeader, forall_mem_fetchRawHeader⟩⟩

lemma messageContent_ends (body : Option Bytes) :
    Ends (fun x => ∀ s ∈ x.2.texts, ReadFrom h s) (Error.Justified h) (messageContent h body) := by
  refine ends_expectHeader.bind fun destination hdestination => ?_
  refine ends_expectHeader.bind fun messageId hid => ?_
  refine ends_expectHeader.bind fun subscription hsubscription => ?_
  refine (ends_headers (List.Subset.refl h)).bind fun headers hheaders => ?_
  refine List.forall_mem_cons.2 ⟨hdestination, List.forall_mem_cons.2 ⟨hid, ?_⟩⟩
  refine List.forall_mem_cons.2 ⟨hsubscription, ?_⟩
  exact List.forall_mem_append.2 ⟨forall_mem_fetchHeader, hheaders⟩

lemma receiptContent_ends :
    Ends (fun x => ∀ s ∈ x.2.texts, ReadFrom h s) (Error.Justified h) (receiptContent h) :=
  ends_expectHeader.bind fun _ hid => List.forall_mem_singleton.2 hid

end Conversions

namespace Frame

/-- **A frame from a client is judged by the bytes on the wire.** -/
theorem toClientMsg_ends (f : Frame) :
    Ends (fun msg => ∀ s ∈ msg.content.texts, ReadFrom f.headers s) (Error.Justified f.headers)
      f.toClientMsg := by
  have hcontent : Ends (fun x => ∀ s ∈ x.2.texts, ReadFrom f.headers s)
      (Error.Justified f.headers) f.clientContent := by
    refine ends_ite connectContent_ends <| ends_ite forall_mem_fetchHeader <|
      ends_ite (sendContent_ends _) <| ends_ite subscribeContent_ends <|
        ends_ite unsubscribeContent_ends <| ends_ite (ackContent_ends ?_) <|
          ends_ite (ackContent_ends ?_) <| ends_ite (transactionContent_ends ?_) <|
            ends_ite (transactionContent_ends ?_) <| ends_ite (transactionContent_ends ?_) trivial
    · exact fun id transaction => rfl
    · exact fun id transaction => rfl
    · exact fun transaction => rfl
    · exact fun transaction => rfl
    · exact fun transaction => rfl
  exact hcontent.bind fun x hx => hx

/-- **So is a frame from a server.** -/
theorem toServerMsg_ends (f : Frame) :
    Ends (fun msg => ∀ s ∈ msg.content.texts, ReadFrom f.headers s) (Error.Justified f.headers)
      f.toServerMsg := by
  have hcontent : Ends (fun x => ∀ s ∈ x.2.texts, ReadFrom f.headers s)
      (Error.Justified f.headers) f.serverContent :=
    ends_ite connectedContent_ends <| ends_ite (messageContent_ends _) <|
      ends_ite receiptContent_ends <| ends_ite forall_mem_fetchHeader trivial
  exact hcontent.bind fun x hx => hx

end Frame

/-- **Unescaping neither creates nor repairs invalid UTF-8**, so nothing is refused or let through
that checking the bytes on the wire would not. -/
theorem unescaping_keeps_utf8 :
    (∀ v, ValidUtf8 (unescapeHeaderValue v) ↔ ValidUtf8 v) ∧
      (∀ v, fromUtf8 (unescapeHeaderValue v) = (fromUtf8 v).map unescapeString) ∧
      (∀ headers key, (∃ s, fetchHeader headers key = some s) ↔
        ∃ v, firstValue headers (asBytes key) = some v ∧ ValidUtf8 v) ∧
      (∀ key value, ((∃ kv, headerToString key value = .ok kv) ↔
          ValidUtf8 key ∧ ValidUtf8 value) ∧
        headerToString key value = checkedHeader key value) ∧
      (∀ f : Frame, (∀ h ∈ f.headers, h.IsUtf8) →
        ∀ e, f.toClientMsg = .error e ∨ f.toServerMsg = .error e →
          e ≠ .headerNameNotUtf8 ∧ (∀ key, e ≠ .headerValueNotUtf8 key) ∧
            ∀ key, e = .missingHeader key → firstValue f.headers (asBytes key) = none) ∧
      ∀ f : Frame,
        Ends (fun msg => ∀ s ∈ msg.content.texts, ReadFrom f.headers s)
          (Error.Justified f.headers) f.toClientMsg ∧
        Ends (fun msg => ∀ s ∈ msg.content.texts, ReadFrom f.headers s)
          (Error.Justified f.headers) f.toServerMsg := by
  refine ⟨validUtf8_unescapeHeaderValue, fromUtf8_unescapeHeaderValue,
    fun _ _ => exists_fetchHeader, fun key value => ?_, fun f hutf8 e he => ?_,
    fun f => ⟨f.toClientMsg_ends, f.toServerMsg_ends⟩⟩
  · exact ⟨exists_headerToString (h := (key, value)), headerToString_eq key value⟩
  · have hjustified : e.Justified f.headers := by
      rcases he with he | he
      · exact f.toClientMsg_ends.error he
      · exact f.toServerMsg_ends.error he
    exact hjustified.of_utf8 hutf8

end AsyncStomp
