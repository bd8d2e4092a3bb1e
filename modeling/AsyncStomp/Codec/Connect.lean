/-
# The CONNECT frame

The headers of a CONNECT go out unescaped, and nothing else checks them.  It is read back
as what it was written as exactly when none of its strings holds the end of a line
(`connect_iff`); one that does ends its header early (`connect_injects_header`).
-/
import AsyncStomp.Codec.Fields
import AsyncStomp.Frame.Heartbeat

namespace AsyncStomp

open PartialInput PartialInput.Parser

/-- A string that stays within one line. -/
def NoEol (s : String) : Prop := ∀ b ∈ asBytes s, isEol b = false

/-! ### Heart-beats -/

/-- The heart-beat of a CONNECT is read as it is written. -/
lemma optionalHeartbeat_value (heartbeat : Option (UInt32 × UInt32)) :
    optionalHeartbeat ((heartbeat.map heartbeatValue).bind fromUtf8) = .ok heartbeat := by
  cases heartbeat with
  | none => rfl
  | some v =>
      obtain ⟨s, hs⟩ := ToServer.exists_string_heartbeatValue v
      rw [Option.map_some, Option.bind_some, hs, fromUtf8_asBytes, optionalHeartbeat,
        parseHeartbeat_of_asBytes hs.symm]
      rfl

lemma isEol_of_mem_heartbeatValue {v : UInt32 × UInt32} {b : UInt8} (hb : b ∈ heartbeatValue v) :
    isEol b = false := by
  have hdigit : ∀ n, ∀ b ∈ decimal n, isEol b = false := fun n b hb => by
    have hlf : b ≠ lf := ne_of_mem_decimal hb (by decide)
    have hcr : b ≠ cr := ne_of_mem_decimal hb (by decide)
    simp [isEol, hlf, hcr]
  rcases List.mem_append.1 hb with hb | hb
  · exact hdigit _ b hb
  · rcases List.mem_cons.1 hb with rfl | hb
    · rfl
    · exact hdigit _ b hb

/-! ### The frame -/

section Connect

variable (acceptVersion host : String) (login passcode : Option String)
  (heartbeat : Option (UInt32 × UInt32))

/-- A CONNECT is read back: as one CONNECT frame with exactly the headers it was made with, and
then as the same content. -/
def ConnectComesThrough : Prop :=
  ∃ f msg,
    parseFrame (encode
        (.message ⟨.connect acceptVersion host login passcode heartbeat, []⟩) []) = .ok f [] ∧
      f.command = asBytes "CONNECT" ∧
      f.headers = (ToServer.connect acceptVersion host login passcode heartbeat).toFrame.headers ∧
      f.toClientMsg = .ok msg ∧
      msg.content = .connect acceptVersion host login passcode heartbeat

/-- None of the strings of a CONNECT ends its line. -/
def ConnectWithinLines : Prop :=
  NoEol acceptVersion ∧ NoEol host ∧ (∀ s ∈ login, NoEol s) ∧ ∀ s ∈ passcode, NoEol s

variable {acceptVersion host login passcode heartbeat}

/-- The values of a CONNECT stay within their lines if its strings do. -/
lemma isEol_of_mem_connect (h : ConnectWithinLines acceptVersion host login passcode)
    {hd : Header}
    (hhd : hd ∈ (ToServer.connect acceptVersion host login passcode heartbeat).typedHeaders)
    {b : UInt8} (hb : b ∈ hd.2) : isEol b = false := by
  obtain ⟨hversion, hhost, hlogin, hpasscode⟩ := h
  have hopt : ∀ o : Option String, (∀ s ∈ o, NoEol s) → some hd.2 = optStrToBytes o →
      isEol b = false := by
    intro o ho heq
    obtain ⟨s, hs, hv⟩ := Option.map_eq_some_iff.1 heq.symm
    exact ho s hs b (hv ▸ hb)
  have hmem := Frame.mem_withValue.1 hhd
  simp only [List.mem_cons, Prod.mk.injEq, List.not_mem_nil, or_false] at hmem
  rcases hmem with ⟨-, hv⟩ | ⟨-, hv⟩ | ⟨-, hv⟩ | ⟨-, hv⟩ | ⟨-, hv⟩
  · exact hversion b (Option.some.inj hv ▸ hb)
  · exact hhost b (Option.some.inj hv ▸ hb)
  · exact hopt login hlogin hv
  · obtain ⟨v, -, hv⟩ := Option.map_eq_some_iff.1 hv.symm
    exact isEol_of_mem_heartbeatValue (hv ▸ hb)
  · exact hopt passcode hpasscode hv

/-- The keys of the fields stay within their lines. -/
lemma keyStop_of_mem_typedHeaders {content : ToServer} {hd : Header}
    (hhd : hd ∈ content.typedHeaders) {b : UInt8} (hb : b ∈ hd.1) : keyStop b = false := by
  have hkeys : ∀ k ∈ fieldKeys, ∀ b ∈ asBytes k, keyStop b = false := by
    decide +kernel
  obtain ⟨k, hk, hkey⟩ := ToServer.exists_fieldKey hhd
  exact hkeys k hk b (hkey ▸ hb)

/-- The headers of a CONNECT go out as they are. -/
lemma writtenHeaders_of_connect {f : Frame} (h : f.command = asBytes "CONNECT") :
    f.writtenHeaders = f.headers := by
  have hescaped : headersAreEscaped (asBytes "CONNECT") = false := by decide
  rw [Frame.writtenHeaders, h, hescaped, writtenHeader_false, List.map_id]

/-- A CONNECT frame without a body is read back as it is if its headers stay within their lines
and measure no body. -/
lemma writable_of_connect {f : Frame} (hcommand : f.command = asBytes "CONNECT")
    (hbody : f.body = none) (hne : ∀ h ∈ f.headers, h.1 ≠ [])
    (hkey : ∀ h ∈ f.headers, ∀ b ∈ h.1, keyStop b = false)
    (hvalue : ∀ h ∈ f.headers, ∀ b ∈ h.2, isEol b = false)
    (hfits : BodyFits f.headers []) : f.Writable := by
  have hwritten := writtenHeaders_of_connect hcommand
  have hconnect : asBytes "CONNECT" ≠ [] ∧ ∀ b ∈ asBytes "CONNECT", isAlpha b = true := by
    decide +kernel
  refine ⟨hcommand ▸ hconnect.1, hcommand ▸ hconnect.2, ?_, ?_, ?_, ?_⟩
  · rwa [hwritten]
  · rwa [hwritten]
  · rwa [hwritten]
  · rwa [hwritten, hbody]

/-- The content of a CONNECT is found in its headers. -/
lemma clientContent_of_connect {f : Frame} (hcommand : f.command = asBytes "CONNECT")
    (hheaders : f.headers =
      (ToServer.connect acceptVersion host login passcode heartbeat).typedHeaders) :
    ∃ keys, f.clientContent =
      .ok (keys, .connect acceptVersion host login passcode heartbeat) := by
  have hnames : f.hasCommand ["STOMP", "CONNECT", "stomp", "connect"] = true := by
    rw [Frame.hasCommand_of_command hcommand]
    decide
  have hlogin : ∀ o : Option String, (optStrToBytes o).bind fromUtf8 = o := by
    intro o
    cases o <;> simp [optStrToBytes]
  have hversion : fetchRawHeader f.headers "accept-version" = some acceptVersion := by
    rw [hheaders]
    simp [fetchRawHeader, ToServer.typedHeaders, ToServer.toFrame, Frame.new]
  have hhost : fetchRawHeader f.headers "host" = some host := by
    rw [hheaders]
    simp [fetchRawHeader, ToServer.typedHeaders, ToServer.toFrame, Frame.new]
  have hbeat : optionalHeartbeat (fetchRawHeader f.headers "heart-beat") = .ok heartbeat := by
    rw [hheaders, ← optionalHeartbeat_value heartbeat]
    simp [fetchRawHeader, ToServer.typedHeaders, ToServer.toFrame, Frame.new]
  have hcontent := connectContent_eq hbeat hversion hhost
  have hl : fetchRawHeader f.headers "login" = login := by
    rw [hheaders]
    simp [fetchRawHeader, ToServer.typedHeaders, ToServer.toFrame, Frame.new, hlogin]
  have hp : fetchRawHeader f.headers "passcode" = passcode := by
    rw [hheaders]
    simp [fetchRawHeader, ToServer.typedHeaders, ToServer.toFrame, Frame.new, hlogin]
  rw [hl, hp] at hcontent
  rw [Frame.clientContent, if_pos hnames]
  exact ⟨_, hcontent⟩

/-- The value of a header that was parsed does not end its line. -/
lemma isEol_of_mem_parsed {xs rest : Bytes} {f : Frame} (h : parseFrame xs = .ok f rest)
    {hd : Header} (hhd : hd ∈ f.headers) {b : UInt8} (hb : b ∈ hd.2) : isEol b = false := by
  obtain ⟨mid, hp, -⟩ := parseFrame_eq_ok_iff.1 h
  obtain ⟨w, -, rfl⟩ := parseThroughNul_eq_ok_iff.1 hp
  obtain ⟨l, -, rfl⟩ := List.mem_map.1 hhd
  exact l.value_eol b hb

/-- **When a CONNECT comes through.**  It is read back as one frame with exactly its headers, and as
the same content, if and only if neither the version nor the host nor the login nor the passcode
holds a carriage return or a line feed. -/
theorem connect_iff (acceptVersion host : String) (login passcode : Option String)
    (heartbeat : Option (UInt32 × UInt32)) :
    ConnectComesThrough acceptVersion host login passcode heartbeat ↔
      ConnectWithinLines acceptVersion host login passcode := by
  constructor
  · rintro ⟨f, msg, hparse, -, hheaders, -, -⟩
    -- the headers were parsed, and no value that was parsed ends its line
    have hvalue : ∀ hd ∈ (ToServer.connect acceptVersion host login passcode
        heartbeat).typedHeaders, ∀ b ∈ hd.2, isEol b = false := fun hd hhd b hb =>
      isEol_of_mem_parsed hparse (hheaders ▸ hhd) hb
    refine ⟨?_, ?_, ?_, ?_⟩
    · exact hvalue (asBytes "accept-version", asBytes acceptVersion)
        (Frame.mem_withValue.2 (by simp))
    · exact hvalue (asBytes "host", asBytes host) (Frame.mem_withValue.2 (by simp))
    · rintro s rfl
      exact hvalue (asBytes "login", asBytes s)
        (Frame.mem_withValue.2 (by simp [optStrToBytes]))
    · rintro s rfl
      exact hvalue (asBytes "passcode", asBytes s)
        (Frame.mem_withValue.2 (by simp [optStrToBytes]))
  · intro hlines
    have hheaders : (Message.toFrame
        ⟨.connect acceptVersion host login passcode heartbeat, []⟩).headers =
          (ToServer.connect acceptVersion host login passcode heartbeat).typedHeaders := by
      rw [Message.toFrame, Frame.addExtraHeaders_nil]
      rfl
    have hlength := getContentLength_of_firstValue_none
      (Message.firstValue_typedHeaders_contentLength
        (.connect acceptVersion host login passcode heartbeat))
    have hwritable : (Message.toFrame
        ⟨.connect acceptVersion host login passcode heartbeat, []⟩).Writable := by
      refine writable_of_connect (Message.toFrame_command _) (Message.toFrame_body _) ?_ ?_ ?_ ?_
      · rw [hheaders]
        exact fun hd hhd => (ToServer.typedHeaders_ne hhd).1
      · rw [hheaders]
        exact fun hd hhd b hb => keyStop_of_mem_typedHeaders hhd hb
      · rw [hheaders]
        exact fun hd hhd b hb => isEol_of_mem_connect hlines hhd hb
      · rw [hheaders]
        exact BodyFits.of_none hlength (by simp)
    -- the headers of a CONNECT are written as they are
    have hwritten := (writtenHeaders_of_connect (Message.toFrame_command
      ⟨.connect acceptVersion host login passcode heartbeat, []⟩)).trans hheaders
    obtain ⟨keys, hcontent⟩ := clientContent_of_connect (f := (Message.toFrame
      ⟨.connect acceptVersion host login passcode heartbeat, []⟩).written)
      (Message.toFrame_command _) hwritten
    exact ⟨_, _, hwritable.parseFrame_serialize, Message.toFrame_command _, hwritten,
      Frame.toClientMsg_of_content hcontent, rfl⟩

/-- **A line feed in the host adds a header.**  Such a CONNECT is not read back as what it was
written as: the rest of the host is read as a login. -/
theorem connect_injects_header :
    ¬ ConnectComesThrough "1.2" "h\nlogin:admin" none none (some (0, 0)) ∧
      ∃ f, parseFrame (encode (.message
          ⟨.connect "1.2" "h\nlogin:admin" none none (some (0, 0)), []⟩) []) = .ok f [] ∧
        fetchRawHeader f.headers "host" = some "h" ∧
          fetchRawHeader f.headers "login" = some "admin" := by
  have hparse : parseFrame (encode (.message
      ⟨.connect "1.2" "h\nlogin:admin" none none (some (0, 0)), []⟩) []) =
        .ok ⟨asBytes "CONNECT", [(asBytes "accept-version", asBytes "1.2"),
          (asBytes "host", asBytes "h"), (asBytes "login", asBytes "admin"),
            (asBytes "heart-beat", asBytes "0,0")], none⟩ [] := by
    decide +kernel
  refine ⟨?_, _, hparse, by decide +kernel, by decide +kernel⟩
  rintro ⟨f, msg, hf, -, hheaders, -, -⟩
  rw [hparse] at hf
  cases hf
  revert hheaders
  decide

end Connect

end AsyncStomp
