/-
# What the CONNECT asks for

The server reads the request for heart-beats out of the CONNECT frame, the client takes it
from its configuration.  The two are the same exactly when the lines of the strings that are sent
can be read and none of them stands in for the configured heart-beat (`asksForRequested_iff`).
Where no string ends its line, only a custom `heart-beat` header can do so, and only if none is
configured.
-/
import AsyncStomp.Client.Connector
import AsyncStomp.Codec.Connect
import AsyncStomp.Frame.Lines

namespace AsyncStomp

open PartialInput PartialInput.Parser

/-! ### The CONNECT of a configuration -/

/-- The heart-beats a CONNECT asks for, as its reader finds them: those of the first `heart-beat`
header, none in either direction without one. -/
def askedHeartbeat (bytes : Bytes) : Option (UInt32 × UInt32) :=
  match parseFrame bytes with
  | .ok frame _ =>
      match optionalHeartbeat (fetchRawHeader frame.headers "heart-beat") with
      | .ok hb => some (hb.getD (0, 0))
      | .error _ => none
  | .incomplete => none
  | .backtrack => none

lemma askedHeartbeat_eq_some {bytes : Bytes} {asked : UInt32 × UInt32} :
    askedHeartbeat bytes = some asked ↔ ∃ f rest hb, parseFrame bytes = .ok f rest ∧
      optionalHeartbeat (fetchRawHeader f.headers "heart-beat") = .ok hb ∧
        hb.getD (0, 0) = asked := by
  rw [askedHeartbeat]
  cases hp : parseFrame bytes with
  | ok f rest =>
      cases hhb : optionalHeartbeat (fetchRawHeader f.headers "heart-beat") <;> simp [hhb]
  | incomplete => simp
  | backtrack => simp

/-- The first heart-beat that lines bring. -/
def firstBeat (ls : List Bytes) : Option Bytes :=
  firstValue ((linesToBlank ls).map readLine) (asBytes "heart-beat")

/-- A heart-beat is read as these intervals; without one, there are none. -/
def ReadsBeat (value : Option Bytes) (beat : UInt32 × UInt32) : Prop :=
  ∃ hb, optionalHeartbeat (value.bind fromUtf8) = .ok hb ∧ hb.getD (0, 0) = beat

namespace Connector

variable (c : Connector)

/-- The CONNECT asks for what the client negotiates with, so that a server which works the intervals
out from the CONNECT and its own reply arrives at those of the client. -/
def AsksForRequested : Prop :=
  ∃ asked, askedHeartbeat c.connectBytes = some asked ∧ asked = c.requested.getD (0, 0) ∧
    ∀ version session server heartbeat extra answered out,
      optionalHeartbeat heartbeat = .ok answered →
        acceptConnected (some ⟨.connected version session server heartbeat, extra⟩) c.requested =
          .ok out → out = intervals asked (answered.getD (0, 0))

/-- The headers of the CONNECT that the configuration has settings for. -/
def ownHeaders : List Header := c.msg.content.typedHeaders

/-- The custom headers that are sent: those under none of the keys of the settings. -/
def keptHeaders : List Header :=
  c.extraHeaders.filter fun h => !((c.ownHeaders.map Prod.fst).contains h.1)

/-- What stands behind the command, through the NUL. -/
def headerBlock : Bytes :=
  (c.ownHeaders ++ c.keptHeaders).flatMap (fun h => headerText h ++ [lf]) ++ [lf, nul]

/-- No string of the configuration that is sent ends its line. -/
def WithinLines : Prop :=
  NoEol c.virtualhost ∧ (∀ s ∈ c.login, NoEol s) ∧ (∀ s ∈ c.passcode, NoEol s) ∧
    ∀ h ∈ c.keptHeaders, ∀ b ∈ headerText h, isEol b = false

/-- The custom headers leave the frame readable: each has a key, and they announce no body. -/
def Readable : Prop :=
  (∀ h ∈ c.keptHeaders, (lineHeader h).1 ≠ []) ∧
    ∀ n, getContentLength (c.keptHeaders.map lineHeader) = some n → n = 0

/-- No custom header asks for heart-beats in place of the configuration. -/
def NoOtherHeartbeat : Prop :=
  c.heartbeat = none →
    ∃ hb, optionalHeartbeat (fetchRawHeader (c.keptHeaders.map lineHeader) "heart-beat") = .ok hb ∧
      hb.getD (0, 0) = (0, 0)

/-- The header block falls into the lines of these headers, a blank line and a body that fits. -/
def FallsInto (hs : List Header) : Prop :=
  ∃ (ls : List HeaderLine) (blank : Eol) (body rest : Bytes),
    c.headerBlock = ls.flatMap HeaderLine.bytes ++ (blank.bytes ++ (body ++ nul :: rest)) ∧
      BodyFits hs body ∧ ls.map HeaderLine.header = hs

/-- The headers in front of the heart-beat. -/
def frontHeaders : List Header :=
  Frame.withValue [(asBytes "accept-version", some (asBytes "1.2")),
    (asBytes "host", some (asBytes c.virtualhost)), (asBytes "login", optStrToBytes c.login)]

/-- The heart-beat that is configured, if one is. -/
def beatHeaders : List Header :=
  Frame.withValue [(asBytes "heart-beat", c.heartbeat.map heartbeatValue)]

/-- The headers behind the heart-beat. -/
def backHeaders : List Header :=
  Frame.withValue [(asBytes "passcode", optStrToBytes c.passcode)] ++ c.keptHeaders

/-- The lines of all strings that are sent, and the blank one behind them. -/
def lines : List Bytes :=
  headerLines c.frontHeaders ++ (headerLines c.beatHeaders ++ (headerLines c.backHeaders ++ [[]]))

/-- The lines of the strings are read: each up to the first blank one is that of a header, and if
they measure a body, it ends at a NUL. -/
structure LinesReadable : Prop where
  header : ∀ l ∈ linesToBlank c.lines, IsHeaderLine l
  body : ∀ n, getContentLength ((linesToBlank c.lines).map readLine) = some n →
    (block (linesBehindBlank c.lines) ++ [nul])[n.toNat]? = some nul

/-- The strings leave the configured heart-beat in its place. -/
structure BeatInPlace : Prop where
  /-- The host and the login bring no other one in front of it. -/
  front : ∀ v, firstBeat (headerLines c.frontHeaders) = some v →
    ReadsBeat (some v) (c.heartbeat.getD (0, 0))
  /-- If one of them ends the headers, none is configured. -/
  cut : firstBeat (headerLines c.frontHeaders) = none → HasBlank (headerLines c.frontHeaders) →
    c.heartbeat.getD (0, 0) = (0, 0)
  /-- If none is configured, the passcode and the custom headers bring none either. -/
  back : firstBeat (headerLines c.frontHeaders) = none → ¬ HasBlank (headerLines c.frontHeaders) →
    c.heartbeat = none → ReadsBeat (firstBeat (headerLines c.backHeaders)) (0, 0)

variable {c}

/-- What goes out is the command and the header block. -/
lemma connectBytes_eq : c.connectBytes = asBytes "CONNECT" ++ lf :: c.headerBlock := by
  have hescaped : headersAreEscaped (asBytes "CONNECT") = false := by decide
  have hcommand : c.msg.toFrame.command = asBytes "CONNECT" := rfl
  have hbody : c.msg.toFrame.body = none := rfl
  have hheaders : c.msg.toFrame.headers = c.ownHeaders ++ c.keptHeaders := rfl
  have hlines : Frame.serializeHeader false = fun h => headerText h ++ [lf] := by
    funext h
    simp [Frame.serializeHeader, headerText]
  show [] ++ c.msg.toFrame.serialize = _
  rw [Frame.serialize, hcommand, hbody, hheaders, hescaped, hlines]
  rfl

/-- **Which headers are read**: those of the lines that the header block falls into. -/
theorem parseFrame_connectBytes_iff {hs : List Header} :
    (∃ f rest, parseFrame c.connectBytes = .ok f rest ∧ f.headers = hs) ↔ c.FallsInto hs := by
  have hcommand : asBytes "CONNECT" ≠ [] ∧ ∀ b ∈ asBytes "CONNECT", isAlpha b = true := by
    decide +kernel
  have hdrop : dropLineEnding c.connectBytes = c.connectBytes := by
    rw [connectBytes_eq]
    rfl
  simp only [parseFrame_eq_ok_iff, hdrop]
  constructor
  · rintro ⟨f, rest, ⟨mid, hp, -⟩, rfl⟩
    obtain ⟨w, hbytes, rfl⟩ := parseThroughNul_eq_ok_iff.1 hp
    rw [connectBytes_eq, WireFrame.bytes] at hbytes
    simp only [List.append_assoc, List.singleton_append] at hbytes
    -- both begin with the line of the command, and the header block follows
    obtain ⟨r, hr, hline, -⟩ :=
      exists_line (fun b hb => isEol_of_isAlpha (w.command_alpha b hb)) w.commandEol
    rw [← List.append_assoc w.command, hline, List.append_assoc] at hbytes
    obtain ⟨-, hblock⟩ := cut_unique (by decide) hr hbytes
    exact ⟨w.headers, w.blank, w.body, mid, hblock, w.body_fits, rfl⟩
  · rintro ⟨ls, blank, body, rest, hblock, hfits, rfl⟩
    let w : WireFrame := ⟨asBytes "CONNECT", .lf, ls, blank, body, hcommand.1, hcommand.2, hfits⟩
    have hbytes : c.connectBytes = w.bytes ++ rest := by
      rw [connectBytes_eq, hblock]
      simp [w, WireFrame.bytes, Eol.bytes]
    rw [hbytes, w.parseThroughNul_bytes]
    exact ⟨_, _, ⟨rest, rfl, rfl⟩, rfl⟩

/-! ### The lines of the strings -/

lemma ownHeaders_eq : c.ownHeaders = c.frontHeaders ++ (c.beatHeaders ++
    Frame.withValue [(asBytes "passcode", optStrToBytes c.passcode)]) := by
  rw [frontHeaders, beatHeaders, ← Frame.withValue_append, ← Frame.withValue_append]
  rfl

/-- The lines are those of the headers, in the order these are sent in. -/
lemma lines_eq : c.lines = headerLines (c.ownHeaders ++ c.keptHeaders) ++ [[]] := by
  rw [lines, ownHeaders_eq, backHeaders]
  simp only [headerLines_append, List.append_assoc]

lemma headerBlock_eq : c.headerBlock = block c.lines ++ [nul] := by
  rw [headerBlock, lines_eq, block_append, block_headerLines, List.append_assoc]
  rfl

/-- What is behind the headers holds a body that fits if it has a NUL where they measure one. -/
lemma exists_body_iff {hs : List Header} {behind : Bytes} (hnul : nul ∈ behind) :
    (∃ body rest, body ++ nul :: rest = behind ∧ BodyFits hs body) ↔
      ∀ n, getContentLength hs = some n → behind[n.toNat]? = some nul := by
  cases hlen : getContentLength hs with
  | none =>
      obtain ⟨body, rest, rfl, hbody⟩ := List.eq_append_cons_of_mem hnul
      exact iff_of_true ⟨body, rest, rfl, BodyFits.of_none hlen hbody⟩ nofun
  | some n =>
      simp only [Option.some.injEq, forall_eq']
      constructor
      · rintro ⟨body, rest, rfl, hfits⟩
        rw [BodyFits, hlen] at hfits
        rw [← (show body.length = n.toNat from hfits)]
        simp
      · intro h
        obtain ⟨hlt, hat⟩ := List.getElem?_eq_some_iff.1 h
        refine ⟨behind.take n.toNat, behind.drop (n.toNat + 1), ?_, BodyFits.of_some hlen ?_⟩
        · rw [← hat, ← List.drop_eq_getElem_cons hlt, List.take_append_drop]
        · rw [List.length_take, Nat.min_eq_left hlt.le]

/-- **How the strings are read**: line by line, up to the first blank one. -/
theorem fallsInto_iff {hs : List Header} :
    c.FallsInto hs ↔ hs = (linesToBlank c.lines).map readLine ∧ c.LinesReadable := by
  have hlf : ∀ l ∈ c.lines, lf ∉ l := by
    intro l hl
    rw [lines_eq] at hl
    rcases List.mem_append.1 hl with hl | hl
    · exact lf_not_mem_of_mem_headerLines hl
    · rw [List.mem_singleton.1 hl]
      exact List.not_mem_nil
  have hblank : HasBlank c.lines := ⟨[], by simp [lines], rfl⟩
  have hbody := @exists_body_iff hs (block (linesBehindBlank c.lines) ++ [nul]) (by simp)
  rw [FallsInto, headerBlock_eq]
  constructor
  · rintro ⟨ls, blank, body, rest, hblock, hfits, hheaders⟩
    obtain ⟨hall, rfl, hbehind⟩ :=
      (headers_of_block hlf hblank).1 ⟨ls, blank, hblock, hheaders⟩
    exact ⟨rfl, hall, hbody.1 ⟨body, rest, hbehind, hfits⟩⟩
  · rintro ⟨rfl, hall, hlength⟩
    obtain ⟨body, rest, hbehind, hfits⟩ := hbody.2 hlength
    obtain ⟨ls, blank, hblock, hheaders⟩ :=
      (headers_of_block hlf hblank).2 ⟨hall, rfl, hbehind⟩
    exact ⟨ls, blank, body, rest, hblock, hfits, hheaders⟩

/-- The CONNECT asks for what the first heart-beat among the lines says. -/
lemma asksForRequested_iff_readsBeat :
    c.AsksForRequested ↔
      c.LinesReadable ∧ ReadsBeat (firstBeat c.lines) (c.heartbeat.getD (0, 0)) := by
  constructor
  · rintro ⟨asked, hasked, rfl, -⟩
    obtain ⟨f, rest, hb, hparse, hhb, hreq⟩ := askedHeartbeat_eq_some.1 hasked
    obtain ⟨hheaders, hread⟩ :=
      fallsInto_iff.1 (parseFrame_connectBytes_iff.1 ⟨f, rest, hparse, rfl⟩)
    rw [hheaders] at hhb
    exact ⟨hread, hb, hhb, hreq⟩
  · rintro ⟨hread, hb, hhb, hreq⟩
    obtain ⟨f, rest, hparse, hheaders⟩ :=
      parseFrame_connectBytes_iff.2 (fallsInto_iff.2 ⟨rfl, hread⟩)
    have hfetch : optionalHeartbeat (fetchRawHeader f.headers "heart-beat") = .ok hb := by
      rw [hheaders]
      exact hhb
    refine ⟨_, askedHeartbeat_eq_some.2 ⟨f, rest, hb, hparse, hfetch, hreq⟩, rfl, ?_⟩
    intro version session server heartbeat extra answered out hanswered hout
    obtain ⟨session', server', heartbeat', answered', extra', hreply, hanswered', rfl⟩ :=
      acceptConnected_eq_ok_iff.1 hout
    cases hreply
    rw [hanswered] at hanswered'
    cases hanswered'
    rfl

lemma readsBeat_none {beat : UInt32 × UInt32} : ReadsBeat none beat ↔ beat = (0, 0) := by
  constructor
  · rintro ⟨hb, h, rfl⟩
    cases h
    rfl
  · rintro rfl
    exact ⟨none, rfl, rfl⟩

lemma firstBeat_append {ls : List Bytes} (h : ¬ HasBlank ls) (ls' : List Bytes) :
    firstBeat (ls ++ ls') = (firstBeat ls).or (firstBeat ls') := by
  have hself := linesToBlank_append_of_not_blank h []
  rw [List.append_nil] at hself
  rw [firstBeat, firstBeat, linesToBlank_append_of_not_blank h, hself, List.map_append,
    firstValue_append, firstBeat]
  simp [linesToBlank]

/-- Headers that stay within their lines bring the heart-beat of their lines. -/
lemma firstBeat_headerLines {hs : List Header}
    (hhs : ∀ h ∈ hs, ∀ b ∈ headerText h, isEol b = false) :
    firstBeat (headerLines hs) = firstValue (hs.map lineHeader) (asBytes "heart-beat") := by
  have htexts := linesToBlank_headerLines hhs []
  rw [List.append_nil] at htexts
  rw [firstBeat, htexts, List.map_append, List.map_map]
  simp [linesToBlank, Function.comp_def]

/-- The keys of the settings have no colon, so these headers are read as they are. -/
lemma lineHeader_ownHeader {h : Header} (hh : h ∈ c.ownHeaders) : lineHeader h = h := by
  refine lineHeader_eq fun hmem => ?_
  have hstop := keyStop_of_mem_typedHeaders hh hmem
  simp [keyStop] at hstop

/-- The setting brings the configured heart-beat, in a line of its own. -/
lemma firstBeat_beatHeaders (ls : List Bytes) :
    firstBeat (headerLines c.beatHeaders ++ ls) =
      (c.heartbeat.map heartbeatValue).or (firstBeat ls) := by
  have hown : ∀ h ∈ c.beatHeaders, h ∈ c.ownHeaders := fun h hh => by
    rw [ownHeaders_eq]
    exact List.mem_append_right _ (List.mem_append_left _ hh)
  have hlines : ∀ h ∈ c.beatHeaders, ∀ b ∈ headerText h, isEol b = false := by
    rintro ⟨k, v⟩ hh b hb
    rcases List.mem_append.1 hb with hb | hb
    · exact isEol_eq_false_of_keyStop (keyStop_of_mem_typedHeaders (hown _ hh) hb)
    · rcases List.mem_cons.1 hb with rfl | hb
      · rfl
      · have hmem := Frame.mem_withValue.1 hh
        simp only [List.mem_singleton, Prod.mk.injEq] at hmem
        obtain ⟨beat, -, rfl⟩ := Option.map_eq_some_iff.1 hmem.2.symm
        exact isEol_of_mem_heartbeatValue hb
  have hread : c.beatHeaders.map lineHeader = c.beatHeaders.map id :=
    List.map_congr_left fun h hh => lineHeader_ownHeader (hown h hh)
  rw [firstBeat_append (not_hasBlank_headerLines hlines), firstBeat_headerLines hlines, hread,
    List.map_id, beatHeaders]
  simp

/-- **Which heart-beat comes first**: one that the host or the login brings, then the configured
one, then one that the passcode or a custom header brings. -/
lemma readsBeat_lines_iff :
    ReadsBeat (firstBeat c.lines) (c.heartbeat.getD (0, 0)) ↔ c.BeatInPlace := by
  by_cases hblank : HasBlank (headerLines c.frontHeaders)
  · have hfirst : firstBeat c.lines = firstBeat (headerLines c.frontHeaders) := by
      rw [lines, firstBeat, linesToBlank_append_of_blank hblank, ← firstBeat]
    rw [hfirst]
    cases hfront : firstBeat (headerLines c.frontHeaders) with
    | none =>
        rw [readsBeat_none]
        refine ⟨fun h => ⟨?_, fun _ _ => h, ?_⟩, fun h => h.cut hfront hblank⟩
        · simp [hfront]
        · exact fun _ hnot => absurd hblank hnot
    | some v =>
        refine ⟨fun h => ⟨?_, ?_, ?_⟩, fun h => h.front v hfront⟩
        · simpa [hfront] using h
        · simp [hfront]
        · simp [hfront]
  · have hfirst : firstBeat c.lines = (firstBeat (headerLines c.frontHeaders)).or
        ((c.heartbeat.map heartbeatValue).or (firstBeat (headerLines c.backHeaders))) := by
      rw [lines, firstBeat_append hblank, firstBeat_beatHeaders]
      simp only [firstBeat, linesToBlank_append_nil]
    rw [hfirst]
    cases hfront : firstBeat (headerLines c.frontHeaders) with
    | some v =>
        refine ⟨fun h => ⟨?_, ?_, ?_⟩, fun h => h.front v hfront⟩
        · simpa [hfront] using h
        · simp [hfront]
        · simp [hfront]
    | none =>
        cases hreq : c.heartbeat with
        | none =>
            refine ⟨fun h => ⟨?_, ?_, fun _ _ _ => h⟩, fun h => h.back hfront hblank hreq⟩
            · simp [hfront]
            · exact fun _ hyes => absurd hyes hblank
        | some v =>
            have hread : ReadsBeat (some (heartbeatValue v)) v :=
              ⟨some v, optionalHeartbeat_value (some v), rfl⟩
            refine iff_of_true hread ⟨?_, ?_, ?_⟩
            · simp [hfront]
            · exact fun _ hyes => absurd hyes hblank
            · simp [hreq]

/-! ### Configurations that stay within their lines -/

lemma isEol_of_mem_headerText (hlines : c.WithinLines) {h : Header}
    (hh : h ∈ c.ownHeaders ++ c.keptHeaders) {b : UInt8} (hb : b ∈ headerText h) :
    isEol b = false := by
  obtain ⟨hhost, hlogin, hpasscode, hkept⟩ := hlines
  rcases List.mem_append.1 hh with hh | hh
  · have hversion : NoEol "1.2" := by
      rw [NoEol]
      decide +kernel
    rcases List.mem_append.1 hb with hb | hb
    · exact isEol_eq_false_of_keyStop (keyStop_of_mem_typedHeaders hh hb)
    · rcases List.mem_cons.1 hb with rfl | hb
      · rfl
      · exact isEol_of_mem_connect ⟨hversion, hhost, hlogin, hpasscode⟩ hh hb
  · exact hkept h hh b hb

lemma map_lineHeader :
    (c.ownHeaders ++ c.keptHeaders).map lineHeader =
      c.ownHeaders ++ c.keptHeaders.map lineHeader := by
  have hown : c.ownHeaders.map lineHeader = c.ownHeaders.map id :=
    List.map_congr_left fun h hh => lineHeader_ownHeader hh
  rw [List.map_append, hown, List.map_id]

/-- No setting announces a body. -/
lemma getContentLength_ownHeaders (hs : List Header) :
    getContentLength (c.ownHeaders ++ hs) = getContentLength hs := by
  have hnone : firstValue c.ownHeaders (asBytes "content-length") = none :=
    Message.firstValue_typedHeaders_contentLength c.msg.content
  rw [getContentLength, getContentLength, firstValue_append, hnone, Option.none_or]

/-- The settings come first, so the heart-beat of the configuration is the one that is found. -/
lemma optionalHeartbeat_ownHeaders (hs : List Header) :
    optionalHeartbeat (fetchRawHeader (c.ownHeaders ++ hs) "heart-beat") =
      match c.heartbeat with
      | some hb => .ok (some hb)
      | none => optionalHeartbeat (fetchRawHeader hs "heart-beat") := by
  have hown : firstValue c.ownHeaders (asBytes "heart-beat") = c.heartbeat.map heartbeatValue := by
    simp [ownHeaders, msg, ToServer.typedHeaders, ToServer.toFrame, Frame.new]
  rw [fetchRawHeader, firstValue_append, hown]
  cases hreq : c.heartbeat with
  | none => rfl
  | some hb => exact optionalHeartbeat_value (some hb)

/-- Headers within their lines are written as header lines, if each has a key. -/
lemma exists_lines (hlines : c.WithinLines) (hkeys : ∀ h ∈ c.keptHeaders, (lineHeader h).1 ≠ []) :
    ∃ ls : List HeaderLine,
      ls.map HeaderLine.header = c.ownHeaders ++ c.keptHeaders.map lineHeader ∧
        ls.flatMap HeaderLine.bytes =
          (c.ownHeaders ++ c.keptHeaders).flatMap fun h => headerText h ++ [lf] := by
  have hmem : ∀ h ∈ (c.ownHeaders ++ c.keptHeaders).map lineHeader,
      ∀ b ∈ headerText h, isEol b = false := by
    intro h hh b hb
    obtain ⟨g, hg, rfl⟩ := List.mem_map.1 hh
    rw [headerText_lineHeader] at hb
    exact isEol_of_mem_headerText hlines hg hb
  have hkey : ∀ h ∈ (c.ownHeaders ++ c.keptHeaders).map lineHeader,
      ∀ b ∈ h.1, keyStop b = false := by
    intro h hh b hb
    have heol := hmem h hh b (List.mem_append_left _ hb)
    -- the key of a line ends at its first colon
    have hcolon : b ≠ colon := by
      obtain ⟨g, -, rfl⟩ := List.mem_map.1 hh
      rintro rfl
      exact colon_not_mem_readLine (headerText g) hb
    rw [isEol, Bool.or_eq_false_iff] at heol
    simp [keyStop, hcolon, heol]
  have hvalue : ∀ h ∈ (c.ownHeaders ++ c.keptHeaders).map lineHeader,
      ∀ b ∈ h.2, isEol b = false := fun h hh b hb =>
    hmem h hh b (List.mem_append_right _ (List.mem_cons_of_mem _ hb))
  have hne : ∀ h ∈ (c.ownHeaders ++ c.keptHeaders).map lineHeader, h.1 ≠ [] := by
    rw [map_lineHeader]
    intro h hh
    rcases List.mem_append.1 hh with hh | hh
    · exact (ToServer.typedHeaders_ne hh).1
    · obtain ⟨g, hg, rfl⟩ := List.mem_map.1 hh
      exact hkeys g hg
  obtain ⟨ls, hheaders, hbytes⟩ := Frame.exists_lines _ hne hkey hvalue
  refine ⟨ls, hheaders.trans map_lineHeader, ?_⟩
  have htext : ∀ h : Header, h.1 ++ colon :: (h.2 ++ [lf]) = headerText h ++ [lf] := fun h => by
    simp [headerText]
  rw [hbytes, List.flatMap_map]
  simp only [htext, headerText_lineHeader]

/-- Then the header lines are those of the headers, and they are read if each has a key and they
measure no body. -/
lemma linesReadable_iff (hlines : c.WithinLines) : c.LinesReadable ↔ c.Readable := by
  have hwithin : ∀ h ∈ c.ownHeaders ++ c.keptHeaders, ∀ b ∈ headerText h, isEol b = false :=
    fun h hh b hb => isEol_of_mem_headerText hlines hh hb
  have hheaders : linesToBlank c.lines = (c.ownHeaders ++ c.keptHeaders).map headerText := by
    rw [lines_eq, linesToBlank_headerLines hwithin]
    exact List.append_nil _
  have hbehind : linesBehindBlank c.lines = [] := by
    rw [lines_eq, linesBehindBlank_append_of_not_blank (not_hasBlank_headerLines hwithin)]
    rfl
  have hread : (linesToBlank c.lines).map readLine =
      c.ownHeaders ++ c.keptHeaders.map lineHeader := by
    rw [hheaders, List.map_map, ← map_lineHeader]
    rfl
  have hline : ∀ h ∈ c.ownHeaders ++ c.keptHeaders,
      (IsHeaderLine (headerText h) ↔ (lineHeader h).1 ≠ []) := fun h hh =>
    and_iff_left ⟨colon_mem_headerText h, fun hcr => absurd (hwithin h hh cr hcr) (by decide)⟩
  constructor
  · rintro ⟨hall, hbody⟩
    refine ⟨fun h hh => ?_, fun n hn => ?_⟩
    · have hmem := List.mem_append_right c.ownHeaders hh
      exact (hline h hmem).1 (hall _ (hheaders ▸ List.mem_map_of_mem hmem))
    · rw [hread, getContentLength_ownHeaders, hbehind] at hbody
      have hzero := hbody n hn
      cases hn : n.toNat with
      | zero => exact UInt32.toNat_inj.1 hn
      | succ m => simp [hn] at hzero
  · rintro ⟨hkeys, hlength⟩
    refine ⟨fun l hl => ?_, fun n hn => ?_⟩
    · rw [hheaders] at hl
      obtain ⟨h, hh, rfl⟩ := List.mem_map.1 hl
      refine (hline h hh).2 ?_
      rcases List.mem_append.1 hh with hown | hkept
      · rw [lineHeader_ownHeader hown]
        exact (ToServer.typedHeaders_ne hown).1
      · exact hkeys h hkept
    · rw [hread, getContentLength_ownHeaders] at hn
      rw [hlength n hn, hbehind]
      rfl

/-- Then only a custom header can stand in for a heart-beat, and only where none is configured. -/
lemma beatInPlace_iff (hlines : c.WithinLines) : c.BeatInPlace ↔ c.NoOtherHeartbeat := by
  have hwithin : ∀ h ∈ c.ownHeaders ++ c.keptHeaders, ∀ b ∈ headerText h, isEol b = false :=
    fun h hh b hb => isEol_of_mem_headerText hlines hh hb
  have hparts : c.ownHeaders = c.frontHeaders ++ (c.beatHeaders ++
      Frame.withValue [(asBytes "passcode", optStrToBytes c.passcode)]) := ownHeaders_eq
  have hown : ∀ hs : List Header, (∀ h ∈ hs, h ∈ c.ownHeaders) → hs.map lineHeader = hs := by
    intro hs hsub
    have hid : hs.map lineHeader = hs.map id :=
      List.map_congr_left fun h hh => lineHeader_ownHeader (hsub h hh)
    rw [hid, List.map_id]
  have hfrontSub : ∀ h ∈ c.frontHeaders, h ∈ c.ownHeaders := fun h hh =>
    hparts ▸ List.mem_append_left _ hh
  have hpassSub : ∀ h ∈ Frame.withValue [(asBytes "passcode", optStrToBytes c.passcode)],
      h ∈ c.ownHeaders := fun h hh =>
    hparts ▸ List.mem_append_right _ (List.mem_append_right _ hh)
  have hfront : ∀ h ∈ c.frontHeaders, ∀ b ∈ headerText h, isEol b = false := fun h hh =>
    hwithin h (List.mem_append_left _ (hfrontSub h hh))
  have hback : ∀ h ∈ c.backHeaders, ∀ b ∈ headerText h, isEol b = false := fun h hh => by
    rcases List.mem_append.1 hh with hh | hh
    · exact hwithin h (List.mem_append_left _ (hpassSub h hh))
    · exact hwithin h (List.mem_append_right _ hh)
  have hblank := not_hasBlank_headerLines hfront
  have hnone : firstBeat (headerLines c.frontHeaders) = none := by
    rw [firstBeat_headerLines hfront, hown _ hfrontSub, frontHeaders]
    simp
  have hcustom : firstBeat (headerLines c.backHeaders) =
      firstValue (c.keptHeaders.map lineHeader) (asBytes "heart-beat") := by
    rw [firstBeat_headerLines hback, backHeaders, List.map_append, hown _ hpassSub,
      firstValue_append]
    simp
  constructor
  · intro h hreq
    have hread := h.back hnone hblank hreq
    rw [hcustom] at hread
    exact hread
  · intro h
    refine ⟨?_, fun _ hyes => absurd hyes hblank, fun _ _ hreq => ?_⟩
    · simp [hnone]
    · rw [hcustom]
      exact h hreq

/-- **When the CONNECT asks for what the client negotiates with.**  If and only if the lines of its
strings can be read, and bring no other heart-beat in place of the configured one.  If the strings
stay within their lines, these are conditions on the custom headers: they leave the frame readable,
and ask for no heart-beats in place of a configuration without. -/
theorem asksForRequested_iff (c : Connector) :
    (c.AsksForRequested ↔ c.LinesReadable ∧ c.BeatInPlace) ∧
      (c.WithinLines → (c.LinesReadable ↔ c.Readable) ∧ (c.BeatInPlace ↔ c.NoOtherHeartbeat)) := by
  refine ⟨?_, fun hlines => ⟨linesReadable_iff hlines, beatInPlace_iff hlines⟩⟩
  rw [asksForRequested_iff_readsBeat, readsBeat_lines_iff]

/-- A host that brings a heart-beat of its own: it may agree with the configured one, or not. -/
theorem asksForRequested_iff_twoLines :
    let agrees : Connector := ⟨"h\nheart-beat:1,2", none, none, [], some (1, 2)⟩
    let differs : Connector := ⟨"h\r\nheart-beat:7,0", none, none, [], some (1, 2)⟩
    let plain : Connector := ⟨"h", none, none, [("a", "b")], none⟩
    agrees.AsksForRequested ∧ ¬ differs.AsksForRequested ∧
      (plain.LinesReadable ↔ plain.Readable) := by
  intro agrees differs plain
  refine ⟨(asksForRequested_iff agrees).1.2 ⟨⟨by decide, fun n hn => ?_⟩, ?_, ?_, ?_⟩, fun h => ?_,
    ((asksForRequested_iff plain).2 ?_).1⟩
  · have hnone : getContentLength ((linesToBlank agrees.lines).map readLine) = none := by decide
    rw [hnone] at hn
    cases hn
  · have hfirst : firstBeat (headerLines agrees.frontHeaders) = some (asBytes "1,2") := by decide
    rw [hfirst]
    rintro v ⟨⟩
    exact ⟨some (1, 2), by decide, rfl⟩
  · exact fun hnone => absurd hnone (by decide)
  · exact fun hnone => absurd hnone (by decide)
  · obtain ⟨hb, hread, hbeat⟩ :=
      ((asksForRequested_iff differs).1.1 h).2.front (asBytes "7,0") (by decide)
    have hother : optionalHeartbeat (fromUtf8 (asBytes "7,0")) = .ok (some (7, 0)) := by decide
    rw [Option.bind_some, hother] at hread
    cases hread
    exact absurd hbeat (by decide)
  · have hhost : NoEol "h" := by
      rw [NoEol]
      decide +kernel
    exact ⟨hhost, by simp [plain], by simp [plain], by decide +kernel⟩

/-- **A custom header asks for heart-beats behind the client's back.**  Without a heart-beat in the
configuration the server reads `5,5` from this CONNECT, while the client negotiates with none. -/
theorem custom_heartbeat_is_asked_for :
    ¬ (⟨"h", none, none, [("heart-beat", "5,5")], none⟩ : Connector).AsksForRequested ∧
      askedHeartbeat
          (⟨"h", none, none, [("heart-beat", "5,5")], none⟩ : Connector).connectBytes =
        some (5, 5) ∧
      acceptConnected (some ⟨.connected "1.2" none none (some "10,10"), []⟩) none =
        .ok (none, none) := by
  have hasked : askedHeartbeat
      (⟨"h", none, none, [("heart-beat", "5,5")], none⟩ : Connector).connectBytes =
        some (5, 5) := by
    decide +kernel
  refine ⟨?_, hasked, by decide +kernel⟩
  rintro ⟨asked, h, rfl, -⟩
  rw [hasked] at h
  exact absurd h (by decide)

end Connector

end AsyncStomp
