/-
# From the first byte on

A connection from its first byte on, the handshake included.  The reply may come in any pieces:
`connect` ends as the frame says, and where only a part of it comes, as the peer says
(`connect_of_reply`).  The CONNECTED and the messages that the stream then yields are those of the
frames that the server has sent, in order and from the first one on (`yields_of_connect`).  In the
other direction the server reads the CONNECT and then what the caller sends
(`serverReads_of_connect`).
-/
import AsyncStomp.Client.Handshake
import AsyncStomp.Client.Receipt
import AsyncStomp.Client.Requested

namespace AsyncStomp

open PartialInput PartialInput.Parser Tasks

/-! ### Frames that have come in part -/

/-- The frames of a stream that end within its first `n` bytes. -/
def wholeFrames : List (Gap × WireFrame) → ℕ → List (Gap × WireFrame)
  | [], _ => []
  | (g, w) :: ws, n =>
      if g.bytes.length + w.bytes.length ≤ n then
        (g, w) :: wholeFrames ws (n - (g.bytes.length + w.bytes.length))
      else []

/-- What the frames convert to. -/
def conversions (ws : List (Gap × WireFrame)) : List (Except Error (Message FromServer)) :=
  ws.map fun p => p.2.frame.toServerMsg

namespace ClientCodec

variable {codec : ClientCodec}

lemma decode_of_drain {src rest : Bytes} (h : codec.drain src = ⟨[], .ok rest⟩) :
    codec.decode src = (.ok none, rest) := by
  rw [drain, drainFuel] at h
  rcases hdecode : codec.decode src with ⟨(e | _ | msg), rest'⟩
  · rw [hdecode] at h
    cases h
  · rw [hdecode] at h
    cases h
    rfl
  · rw [hdecode] at h
    cases (Run.mk.inj h).1

/-- The beginning of a frame, with line ends in front of it or a part of them. -/
lemma drain_of_cut (codec : ClientCodec) {g : Gap} {w : WireFrame} {P back : Bytes}
    (h : P ++ back = g.bytes ++ w.bytes) (hback : back ≠ []) :
    ∃ g' : Gap, ∃ used, used ++ back = g'.bytes ++ w.bytes ∧ used.length ≤ w.bytes.length ∧
      used = P.dropWhile isEol ∧ codec.drain P = ⟨[], if codec.maxFrameSize < used.length then
        .error (.frameTooLarge codec.maxFrameSize) else .ok used⟩ := by
  rcases List.append_eq_append_iff.1 h with ⟨d, hg, hd⟩ | ⟨used, hP, hw⟩
  · -- not all of the line ends are there
    have hP : ∀ b ∈ P, isEol b = true := fun b hb =>
      g.eols b (hg ▸ List.mem_append_left d hb)
    refine ⟨⟨d, fun b hb => g.eols b (hg ▸ List.mem_append_right P hb)⟩, [], hd, by simp, ?_, ?_⟩
    · exact (List.dropWhile_eq_nil_iff.2 hP).symm
    · rw [List.length_nil, if_neg (Nat.not_lt_zero _)]
      exact drain_gap ⟨P, hP⟩
  · have hdrain : codec.drain (g.bytes ++ used) = _ := drain_cut g hw hback
    have hused : used.dropWhile isEol = used := by
      -- the frame does not begin with a line end
      have hfree : (ClientCodec.mk w.bytes.length).drain (g.bytes ++ used) = _ :=
        drain_cut g hw hback
      have hle : ¬ w.bytes.length < used.length := by
        rw [hw, List.length_append]
        omega
      rw [if_neg hle] at hfree
      have hrest := rest_of_decode_none (decode_of_drain hfree)
      rw [g.dropWhile_append] at hrest
      exact hrest.symm
    refine ⟨⟨[], by simp⟩, used, hw.symm, ?_, ?_, ?_⟩
    · rw [hw, List.length_append]
      omega
    · rw [hP, g.dropWhile_append, hused]
    · rw [hP, hdrain]

/-- A frame that has not come as a whole is waited for, if it is not too long. -/
lemma decode_of_cut {g : Gap} {w : WireFrame} {P back : Bytes}
    (h : P ++ back = g.bytes ++ w.bytes) (hback : back ≠ [])
    (hbound : w.bytes.length ≤ codec.maxFrameSize) :
    ∃ g' : Gap, codec.decode P = (.ok none, P.dropWhile isEol) ∧
      P.dropWhile isEol ++ back = g'.bytes ++ w.bytes := by
  obtain ⟨g', used, hrest, hlen, rfl, hdrain⟩ := drain_of_cut codec h hback
  rw [if_neg (by omega)] at hdrain
  exact ⟨g', decode_of_drain hdrain, hrest⟩

/-- **The messages of the first bytes of a stream** are those of the frames that are there as a
whole, up to the first one that does not convert. -/
theorem drain_of_prefix (codec : ClientCodec) {ws : List (Gap × WireFrame)} {P : Bytes}
    (h : P <+: streamOf ws []) :
    (codec.drain P).items.map Except.ok <+: conversions (wholeFrames ws P.length) ∧
      ∀ rest, (codec.drain P).outcome = .ok rest →
        (codec.drain P).items.map Except.ok = conversions (wholeFrames ws P.length) := by
  induction ws generalizing P with
  | nil =>
      obtain rfl : P = [] := List.prefix_nil.1 h
      have hnil : codec.drain [] = ⟨[], .ok []⟩ := drain_gap ⟨[], by simp⟩
      rw [hnil]
      exact ⟨List.nil_prefix, fun _ _ => rfl⟩
  | cons p ws ih =>
      obtain ⟨g, w⟩ := p
      rw [streamOf, ← List.append_assoc] at h
      have hcases : (∃ back, back ≠ [] ∧ P ++ back = g.bytes ++ w.bytes) ∨
          ∃ Q, P = g.bytes ++ (w.bytes ++ Q) ∧ Q <+: streamOf ws [] := by
        rcases prefix_append_cases h with ⟨back, hback⟩ | ⟨Q, rfl, hQ⟩
        · by_cases hnil : back = []
          · rw [hnil, List.append_nil] at hback
            exact Or.inr ⟨[], by rw [hback, List.append_nil], List.nil_prefix⟩
          · exact Or.inl ⟨back, hnil, hback⟩
        · exact Or.inr ⟨Q, List.append_assoc _ _ _, hQ⟩
      rcases hcases with ⟨back, hback, hcut⟩ | ⟨Q, rfl, hQ⟩
      · obtain ⟨g', used, -, -, -, hdrain⟩ := drain_of_cut codec hcut hback
        have hlen := congrArg List.length hcut
        have hpos := List.length_pos_iff.2 hback
        rw [List.length_append, List.length_append] at hlen
        have hwhole : wholeFrames ((g, w) :: ws) P.length = [] := if_neg (by omega)
        rw [hwhole, hdrain]
        exact ⟨List.nil_prefix, fun _ _ => rfl⟩
      · have hwhole : wholeFrames ((g, w) :: ws) (g.bytes ++ (w.bytes ++ Q)).length =
            (g, w) :: wholeFrames ws Q.length := by
          rw [List.length_append, List.length_append, ← Nat.add_assoc, wholeFrames,
            if_pos (Nat.le_add_right _ _), Nat.add_sub_cancel_left]
        have hdrain : codec.drain (streamOf [(g, w)] Q) = _ := drain_streamOf_cons g w [] Q
        rw [hwhole, conversions, List.map_cons]
        simp only [streamOf] at hdrain
        obtain ⟨hitems, hall⟩ := ih hQ
        cases hmsg : w.frame.toServerMsg with
        | error e =>
            rw [hdrain, hmsg]
            exact ⟨List.nil_prefix, fun rest hrest => by cases hrest⟩
        | ok msg =>
            simp only [hdrain, hmsg, Run.items_after, Run.outcome_after, List.singleton_append,
              List.map_cons]
            exact ⟨(List.prefix_cons_inj _).2 hitems, fun rest hrest =>
              congrArg _ (hall rest hrest)⟩

/-- What `next` returns where the reply is cut short behind these bytes. -/
def unfinished (read buffer : Bytes) :
    Peer → Poll (Except StreamError (Option (Message FromServer)) × Bytes × List Bytes)
  | .connected => .pending
  | .failed => .ready (.error .read, buffer, [])
  | .closed => .ready (if read.all isEol then .ok none else .error .bytesRemaining, buffer, [])

/-- A reply that comes in pieces, and not as a whole. -/
lemma next_of_cut (peer : Peer) {g : Gap} {w : WireFrame} {buf back : Bytes} {reads : List Bytes}
    (h : buf ++ reads.flatten ++ back = g.bytes ++ w.bytes) (hback : back ≠ [])
    (hbound : w.bytes.length ≤ codec.maxFrameSize) :
    ∃ buffer, codec.next peer buf reads = unfinished (buf ++ reads.flatten) buffer peer := by
  induction reads generalizing buf g with
  | nil =>
      rw [List.flatten_nil, List.append_nil] at h ⊢
      obtain ⟨-, hdecode, -⟩ := decode_of_cut h hback hbound
      cases peer with
      | connected => exact ⟨[], rfl⟩
      | failed => exact ⟨buf, rfl⟩
      | closed =>
          have hempty : (buf.dropWhile isEol).isEmpty = buf.all isEol := by
            rw [Bool.eq_iff_iff, List.isEmpty_iff, List.dropWhile_eq_nil_iff, List.all_eq_true]
          refine ⟨buf.dropWhile isEol, ?_⟩
          rw [next]
          simp only [hdecode, hempty]
          rfl
  | cons c cs ih =>
      rw [List.flatten_cons, ← List.append_assoc] at h ⊢
      have hmore : cs.flatten ++ back ≠ [] := fun hnil => hback (List.append_eq_nil_iff.1 hnil).2
      obtain ⟨g', hdecode, hrest⟩ :=
        decode_of_cut ((List.append_assoc _ _ _).symm.trans h) hmore hbound
      rw [← List.append_assoc] at hrest
      obtain ⟨buffer, hnext⟩ := ih hrest
      refine ⟨buffer, ?_⟩
      rw [next]
      simp only [hdecode]
      rw [hnext]
      -- the line ends that the decoder takes off are line ends anyway
      have hall : ((buf ++ c).dropWhile isEol ++ cs.flatten).all isEol =
          (buf ++ c ++ cs.flatten).all isEol := by
        conv_rhs => rw [← List.takeWhile_append_dropWhile (p := isEol) (l := buf ++ c)]
        simp only [List.all_append, List.all_takeWhile, Bool.true_and]
      cases peer <;> simp only [unfinished, hall]

/-- **A reply that comes in pieces** is decoded with the piece that completes it. -/
lemma next_of_frame (peer : Peer) {g : Gap} {w : WireFrame} {buf back behind : Bytes}
    {reads : List Bytes} (hbuf : buf ++ back = g.bytes ++ w.bytes) (hback : back ≠ [])
    (hreads : reads.flatten = back ++ behind) (hbound : w.bytes.length ≤ codec.maxFrameSize) :
    ∃ used unread, behind = used ++ unread.flatten ∧ codec.next peer buf reads =
      .ready ((w.frame.toServerMsg.map some).mapError .decode, dropLineEnding used, unread) := by
  induction reads generalizing buf back g with
  | nil => exact absurd (List.append_eq_nil_iff.1 hreads.symm).1 hback
  | cons c cs ih =>
      rw [List.flatten_cons] at hreads
      have hcases : (∃ back', back' ≠ [] ∧ back = c ++ back' ∧ cs.flatten = back' ++ behind) ∨
          ∃ used, c = back ++ used ∧ behind = used ++ cs.flatten := by
        rcases List.append_eq_append_iff.1 hreads with ⟨back', hc, hrest⟩ | ⟨used, hc, hrest⟩
        · by_cases hnil : back' = []
          · rw [hnil, List.append_nil] at hc
            refine Or.inr ⟨[], by rw [hc, List.append_nil], ?_⟩
            rw [hrest, hnil, List.nil_append, List.nil_append]
          · exact Or.inl ⟨back', hnil, hc, hrest⟩
        · exact Or.inr ⟨used, hc, hrest⟩
      rcases hcases with ⟨back', hne, rfl, hrest⟩ | ⟨used, rfl, hrest⟩
      · obtain ⟨g', hdecode, hcut⟩ :=
          decode_of_cut ((List.append_assoc _ _ _).trans hbuf) hne hbound
        obtain ⟨used, unread, hbehind, hnext⟩ := ih hcut hne hrest
        refine ⟨used, unread, hbehind, ?_⟩
        rw [next]
        simp only [hdecode]
        exact hnext
      · refine ⟨used, cs, hrest, ?_⟩
        have hdecode : codec.decode (g.bytes ++ (w.bytes ++ used)) = _ :=
          decode_of_ok (g.parse_frame w used)
        rw [← List.append_assoc, ← hbuf, List.append_assoc] at hdecode
        rw [next]
        simp only [hdecode]
        cases w.frame.toServerMsg <;> rfl

end ClientCodec

/-! ### The handshake -/

namespace Connecting

variable (c : Connecting)

/-- How `connect` ends where the server replies with this frame. -/
def answer {ε : Type} (w : WireFrame) (buffer : Bytes) (unread : List Bytes) :
    Except (ConnectError ε) Connection :=
  match w.frame.toServerMsg with
  | .error e => .error (.stream (.decode e))
  | .ok reply =>
      match acceptConnected (some reply) c.requested with
      | .error e => .error (.handshake e)
      | .ok (outgoing, incoming) =>
          .ok ⟨⟨if c.beats then .pumped outgoing else .direct, outgoing, incoming, buffer, unread⟩,
            supervise incoming c.autoHeartbeat⟩

/-- How it ends where only these bytes of a reply come. -/
def unanswered {ε : Type} (read : Bytes) : Peer → Poll (Except (ConnectError ε) Connection)
  | .connected => .pending
  | .failed => .ready (.error (.stream .read))
  | .closed => .ready (.error
      (if read.all isEol then .handshake (.unexpectedReply none) else .stream .bytesRemaining))

variable {c}

/-- **The reply may come in any pieces.**  Where the CONNECT was sent and the reply is within the
bound, what the reads return does not matter, only what it comes to: with the whole of a frame
`connect` ends as the frame says, and has lost nothing of what is behind it; with a part of one it
ends as the peer does. -/
theorem connect_of_reply {ε : Type} (c : Connecting) (s : Surroundings ε)
    (hsent : s.sent = .ready (.ok ())) (g : Gap) (w : WireFrame)
    (hbound : w.bytes.length ≤ c.maxFrameSize) :
    (∀ behind, s.reads.flatten = g.bytes ++ (w.bytes ++ behind) → ∃ buffer unread,
        c.connect s = .ready (c.answer w buffer unread) ∧
          ∀ more, c.codec.drain (buffer ++ (unread.flatten ++ more)) =
            c.codec.drain (behind ++ more)) ∧
      ∀ back, back ≠ [] → s.reads.flatten ++ back = g.bytes ++ w.bytes →
        c.connect s = unanswered s.reads.flatten s.peer := by
  constructor
  · intro behind hreads
    have hne : g.bytes ++ w.bytes ≠ [] := fun hnil => by
      have hlen := congrArg List.length (List.append_eq_nil_iff.1 hnil).2
      simp [WireFrame.bytes] at hlen
    obtain ⟨used, unread, rfl, hnext⟩ := @ClientCodec.next_of_frame c.codec s.peer g w [] _ _ _
      (List.nil_append _) hne (hreads.trans (List.append_assoc _ _ _).symm) hbound
    refine ⟨dropLineEnding used, unread, ?_, fun more => ClientCodec.drain_congr ?_⟩
    · rw [connect, establish, hsent]
      simp only [hnext, answer]
      cases w.frame.toServerMsg with
      | error e => rfl
      | ok reply =>
          simp only [Except.map, Except.mapError]
          cases acceptConnected (some reply) c.requested <;> rfl
    · -- an optional line end behind the reply goes with it
      obtain ⟨eol, hused, heol⟩ := dropLineEnding_spec used
      have hgap := Gap.dropWhile_append ⟨eol, heol⟩
        (dropLineEnding used ++ (unread.flatten ++ more))
      rw [← List.append_assoc, ← hused, ← List.append_assoc] at hgap
      exact hgap.symm
  · intro back hback hreads
    obtain ⟨buffer, hnext⟩ : ∃ buffer, c.codec.next s.peer [] s.reads =
        ClientCodec.unfinished ([] ++ s.reads.flatten) buffer s.peer :=
      ClientCodec.next_of_cut s.peer hreads hback hbound
    rw [connect, establish, hsent]
    simp only [hnext, List.nil_append]
    cases s.peer with
    | connected => rfl
    | failed => rfl
    | closed =>
        cases hall : s.reads.flatten.all isEol with
        | true => simp only [ClientCodec.unfinished, unanswered, hall, if_true, acceptConnected,
            Option.map_none]
        | false => simp only [ClientCodec.unfinished, unanswered, hall, Bool.false_eq_true,
            if_false]

/-- The reply of a server that would like to beat every 20 milliseconds. -/
def beatingReply : WireFrame where
  command := asBytes "CONNECTED"
  commandEol := .crlf
  headers := [.ofStrings "version" "1.2" (by decide +kernel),
    .ofStrings "heart-beat" "20,0" (by decide +kernel)]
  blank := .lf
  body := []
  command_ne := by decide
  command_alpha := by decide +kernel
  body_fits := BodyFits.of_none (by decide) List.not_mem_nil

theorem connect_of_reply_beatingReply :
    let c : Connecting := ⟨⟨"/", none, none, [], some (0, 30)⟩, true, 50⟩
    let whole := lf :: (beatingReply.bytes ++ asBytes "\nREC")
    let s : Surroundings Unit :=
      ⟨.ready (.ok ()), [whole.take 11, (whole.drop 11).take 5, whole.drop 16], .failed⟩
    (∀ behind, s.reads.flatten = [lf] ++ (beatingReply.bytes ++ behind) → ∃ buffer unread,
        c.connect s = .ready (c.answer beatingReply buffer unread) ∧
          ∀ more, c.codec.drain (buffer ++ (unread.flatten ++ more)) =
            c.codec.drain (behind ++ more)) ∧
      c.connect s = .ready (.ok ⟨⟨.direct, none, some 30, asBytes "REC", []⟩, some (60, 30)⟩) := by
  intro c whole s
  refine ⟨?_, by decide⟩
  exact (connect_of_reply c s rfl ⟨[lf], Eol.lf.isEol_of_mem⟩ beatingReply (by decide)).1

/-! ### What the server sends -/

lemma inv_of_established_run {codec : ClientCodec} {beats : Bool} {leftover : Bytes}
    {incoming : Option ℕ} {automatic : Bool} {lastRead quiet : ℕ}
    {as : List ClientTransport.Action} {t : ClientTransport}
    (h : run ClientTransport.step (.established codec beats leftover incoming automatic lastRead
      quiet) as = some t) : ClientTransport.Inv codec leftover quiet incoming automatic t :=
  run_invariant (fun _ a _ hstep hs => hs.preserve (ClientTransport.move_of_step a hstep)) h
    (.established codec beats leftover incoming automatic lastRead quiet)

/-- What the caller has of the frames `ws` that the server sends: the CONNECTED, and the messages
that the stream has yielded, after these bytes of the handshake. -/
structure Heard (connected : Message FromServer) (ws : List (Gap × WireFrame)) (greeted : Bytes)
    (log : List ClientTransport.Event) : Prop where
  /-- They are the first of those that have come as a whole, up to the first error. -/
  in_order :
    (connected :: ClientTransport.messages (ClientTransport.beforeEnd log)).map Except.ok <+:
      conversions (wholeFrames ws (greeted.length + (ClientTransport.arrivedBytes log).length))
  /-- Where a poll finds nothing, or the server is declared dead, they are all of them. -/
  caught_up : Always (fun log ev => ev = .pending ∨
      (∃ quietFor period, ev = .yielded (.error (.noData quietFor period))) →
    (connected :: ClientTransport.messages log).map Except.ok =
      conversions (wholeFrames ws (greeted.length + (ClientTransport.arrivedBytes log).length))) log

/-- **Nothing is lost between the handshake and the stream.**  Where `connect` returns a connection,
the reads it made hold a CONNECTED; and in every run of that connection in which what comes is what
the server sends, the CONNECTED and the messages that are yielded are those of the frames that have
come, in order and from the first one on. -/
theorem yields_of_connect {ε : Type} (c : Connecting) (s : Surroundings ε) (conn : Connection)
    (h : c.connect s = .ready (.ok conn)) :
    ∃ taken connected, s.reads = taken ++ conn.unread ∧
      (∃ session server heartbeat,
        connected.content = .connected "1.2" session server heartbeat) ∧
      ∀ lastRead quiet as t, run ClientTransport.step (.established c.codec c.beats conn.buffer
          conn.incoming c.autoHeartbeat lastRead quiet) as = some t →
        ∀ ws, taken.flatten ++ ClientTransport.arrivedBytes t.log <+: streamOf ws [] →
          Heard connected ws taken.flatten t.log := by
  obtain ⟨-, session, server, heartbeat, answered, extra, buffer, unread, hnext, -, rfl⟩ :=
    connect_eq_ok_iff.1 h
  obtain ⟨taken, htaken, hmsg⟩ := ClientCodec.next_eq_some hnext
  refine ⟨taken, ⟨.connected "1.2" session server heartbeat, extra⟩, htaken,
    ⟨session, server, heartbeat, rfl⟩, ?_⟩
  intro lastRead quiet as t hrun ws hws
  have hreliable := (inv_of_established_run hrun).toReliable
  have hdrain := hmsg.drain
  rw [List.nil_append] at hdrain
  constructor
  · obtain ⟨hitems, -⟩ := ClientCodec.drain_of_prefix c.codec hws
    rw [hdrain, Run.items_after, List.singleton_append, List.length_append] at hitems
    have hyielded := hreliable.in_order
    exact (((List.prefix_cons_inj _).2 hyielded).map _).trans hitems
  · intro log ev hlog hev
    -- at such an event the decoder has nothing left of what has come
    have hall : ClientTransport.AllYielded c.codec buffer log := by
      have hjustified := hreliable.justified log ev hlog
      rcases hev with rfl | ⟨quietFor, period, rfl⟩
      · exact hjustified.2
      · exact hjustified.2.2
    obtain ⟨rest, hrest⟩ := hall
    have hsofar : taken.flatten ++ ClientTransport.arrivedBytes log <+: streamOf ws [] := by
      refine List.IsPrefix.trans ?_ hws
      have hmore : ClientTransport.arrivedBytes log <+: ClientTransport.arrivedBytes t.log := by
        obtain ⟨later, hlater⟩ := (List.prefix_append log [ev]).trans hlog
        rw [← hlater, ClientTransport.arrivedBytes_append]
        exact List.prefix_append _ _
      exact (List.prefix_append_right_inj _).2 hmore
    obtain ⟨-, hitems⟩ := ClientCodec.drain_of_prefix c.codec hsofar
    rw [hdrain, hrest, List.length_append] at hitems
    exact hitems rest rfl

/-- The rest of a RECEIPT, the first bytes of which came with the CONNECTED. -/
def restOfReceipt : List ClientTransport.Action :=
  [.pollNext, .decode, .arrive (Session.byeReceipt.bytes.drop 3), .read 100, .decode, .pollNext,
    .decode, .read 100]

theorem yields_of_connect_restOfReceipt :
    ∃ connected t, run ClientTransport.step
        (.established ⟨50⟩ false (asBytes "REC") (some 30) true 0 0) restOfReceipt = some t ∧
      (ClientTransport.messages t.log).length = 1 ∧
      Heard connected [(⟨[lf], Eol.lf.isEol_of_mem⟩, beatingReply),
        (⟨[lf], Eol.lf.isEol_of_mem⟩, Session.byeReceipt)]
        (lf :: (beatingReply.bytes ++ asBytes "\nREC")) t.log := by
  let c : Connecting := ⟨⟨"/", none, none, [], some (0, 30)⟩, true, 50⟩
  let s : Surroundings Unit :=
    ⟨.ready (.ok ()), [[lf], beatingReply.bytes ++ asBytes "\nREC"], .connected⟩
  obtain ⟨taken, connected, htaken, -, hheard⟩ := yields_of_connect c s
    ⟨⟨.direct, none, some 30, asBytes "REC", []⟩, some (60, 30)⟩ (by decide)
  have hgreeted : taken.flatten = lf :: (beatingReply.bytes ++ asBytes "\nREC") := by
    rw [List.append_nil] at htaken
    rw [← htaken]
    decide
  have hfinal : (run ClientTransport.step (.established ⟨50⟩ false (asBytes "REC") (some 30) true
      0 0) restOfReceipt).map (fun t => ((ClientTransport.messages t.log).length,
        ClientTransport.arrivedBytes t.log)) = some (1, Session.byeReceipt.bytes.drop 3) := by
    decide
  obtain ⟨t, hrun, heq⟩ := Option.map_eq_some_iff.1 hfinal
  obtain ⟨hlen, harrived⟩ := Prod.mk.inj heq
  refine ⟨connected, t, hrun, hlen, hgreeted ▸ hheard 0 0 restOfReceipt t hrun _ ?_⟩
  rw [hgreeted, harrived]
  decide

end Connecting

/-! ### What the server reads -/

namespace Connector

variable (c : Connector)

/-- The custom headers, as a server reads them. -/
def customHeaders : List Header := c.keptHeaders.map lineHeader

/-- The frame that a server reads first. -/
def connectFrame : Frame :=
  ⟨asBytes "CONNECT", c.ownHeaders ++ c.customHeaders, bodyOf (c.ownHeaders ++ c.customHeaders) []⟩

/-- What the server makes of that frame: where a setting is left out, a custom header stands in for
it. -/
def readBack : Except Error (Message ToServer) := do
  let heartbeat ← match c.heartbeat with
    | some v => pure (some v)
    | none => optionalHeartbeat (fetchRawHeader c.customHeaders "heart-beat")
  pure ⟨.connect "1.2" c.virtualhost
      (c.login.or (fetchRawHeader c.customHeaders "login"))
      (c.passcode.or (fetchRawHeader c.customHeaders "passcode")) heartbeat,
    otherHeaders c.customHeaders ["accept-version", "host", "login", "passcode", "heart-beat"]⟩

variable {c}

lemma bodyFits_of_readable (h : c.Readable) : BodyFits (c.ownHeaders ++ c.customHeaders) [] := by
  cases hlen : getContentLength c.customHeaders with
  | none => exact BodyFits.of_none ((getContentLength_ownHeaders _).trans hlen) (by simp)
  | some n =>
      refine BodyFits.of_some ((getContentLength_ownHeaders _).trans hlen) ?_
      rw [h.2 n hlen]
      rfl

/-- A CONNECT within its lines is read as one frame, whatever comes behind it. -/
lemma serverReads_connectBytes (hlines : c.WithinLines) (hread : c.Readable) (ys : Bytes) :
    serverReads (c.connectBytes ++ ys) =
      (c.connectFrame :: (serverReads ys).1, (serverReads ys).2) := by
  obtain ⟨ls, hheaders, hbytes⟩ := exists_lines hlines hread.1
  have hcommand : asBytes "CONNECT" ≠ [] ∧ ∀ b ∈ asBytes "CONNECT", isAlpha b = true := by
    decide +kernel
  have hfits : BodyFits (ls.map HeaderLine.header) [] :=
    hheaders.symm ▸ bodyFits_of_readable hread
  let w : WireFrame := ⟨asBytes "CONNECT", .lf, ls, .lf, [], hcommand.1, hcommand.2, hfits⟩
  have hw : w.bytes = c.connectBytes := by
    rw [connectBytes_eq, headerBlock, ← hbytes]
    simp [w, WireFrame.bytes, Eol.bytes]
  have hframe : w.frame = c.connectFrame := by
    rw [connectFrame, customHeaders, ← hheaders]
    rfl
  simp only [serverReads, frames_parseFrame]
  rw [← hw, frames_wireFrame, hframe]

/-- A setting is found in front of the custom headers. -/
lemma fetchRawHeader_connectFrame {key : String} {o : Option String}
    (hown : firstValue c.ownHeaders (asBytes key) = o.map asBytes) :
    fetchRawHeader (c.ownHeaders ++ c.customHeaders) key =
      o.or (fetchRawHeader c.customHeaders key) := by
  rw [fetchRawHeader, firstValue_append, hown]
  cases o with
  | none => rfl
  | some v => exact fromUtf8_asBytes v

/-- The settings are not among the headers that are left over. -/
lemma otherHeaders_connectFrame :
    otherHeaders (c.ownHeaders ++ c.customHeaders)
        ["accept-version", "host", "login", "passcode", "heart-beat"] =
      otherHeaders c.customHeaders
        ["accept-version", "host", "login", "passcode", "heart-beat"] := by
  have hown : otherHeaders c.ownHeaders
      ["accept-version", "host", "login", "passcode", "heart-beat"] = [] := by
    rw [otherHeaders, List.filter_eq_nil_iff]
    intro h hh
    have hmem := Frame.mem_withValue.1 hh
    simp only [List.mem_cons, Prod.mk.injEq, List.not_mem_nil, or_false] at hmem
    rcases hmem with ⟨hkey, -⟩ | ⟨hkey, -⟩ | ⟨hkey, -⟩ | ⟨hkey, -⟩ | ⟨hkey, -⟩ <;> simp [hkey]
  rw [otherHeaders, List.filter_append]
  exact congrArg (· ++ _) hown

lemma toClientMsg_connectFrame (c : Connector) : c.connectFrame.toClientMsg = c.readBack := by
  have hnames : c.connectFrame.hasCommand ["STOMP", "CONNECT", "stomp", "connect"] = true := by
    rw [Frame.hasCommand_of_command rfl]
    decide
  have hversion : fetchRawHeader (c.ownHeaders ++ c.customHeaders) "accept-version" = some "1.2" :=
    fetchRawHeader_connectFrame (o := some "1.2")
      (by simp [ownHeaders, msg, ToServer.typedHeaders, ToServer.toFrame, Frame.new])
  have hhost : fetchRawHeader (c.ownHeaders ++ c.customHeaders) "host" = some c.virtualhost :=
    fetchRawHeader_connectFrame (o := some c.virtualhost)
      (by simp [ownHeaders, msg, ToServer.typedHeaders, ToServer.toFrame, Frame.new])
  have hlogin : fetchRawHeader (c.ownHeaders ++ c.customHeaders) "login" =
      c.login.or (fetchRawHeader c.customHeaders "login") :=
    fetchRawHeader_connectFrame
      (by simp [ownHeaders, msg, ToServer.typedHeaders, ToServer.toFrame, Frame.new, optStrToBytes])
  have hpasscode : fetchRawHeader (c.ownHeaders ++ c.customHeaders) "passcode" =
      c.passcode.or (fetchRawHeader c.customHeaders "passcode") :=
    fetchRawHeader_connectFrame
      (by simp [ownHeaders, msg, ToServer.typedHeaders, ToServer.toFrame, Frame.new, optStrToBytes])
  have hbeat := optionalHeartbeat_ownHeaders (c := c) c.customHeaders
  have hcontent : c.connectFrame.clientContent =
      connectContent (c.ownHeaders ++ c.customHeaders) := by
    rw [Frame.clientContent, if_pos hnames]
    rfl
  have hheaders : c.connectFrame.headers = c.ownHeaders ++ c.customHeaders := rfl
  rw [Frame.toClientMsg, hcontent, connectContent, hbeat, expectRawHeader_of_fetch hversion,
    expectRawHeader_of_fetch hhost, hlogin, hpasscode, hheaders, readBack]
  cases c.heartbeat with
  | some v => exact congrArg (fun hs => Except.ok (Message.mk _ hs)) otherHeaders_connectFrame
  | none =>
      cases optionalHeartbeat (fetchRawHeader c.customHeaders "heart-beat") with
      | error e => rfl
      | ok hb => exact congrArg (fun hs => Except.ok (Message.mk _ hs)) otherHeaders_connectFrame

/-- **A server reads the CONNECT first.**  Where no string of the configuration ends its line and
the custom headers leave the frame readable: of the first bytes that a connection has written, in
any run whose items can be encoded, a server finds the CONNECT and then the frames of the first of
the items that were accepted; and it makes of the CONNECT what the configuration says, with custom
headers in place of the settings that are left out. -/
theorem serverReads_of_connect {σ α : Type} (c : Connector) (hlines : c.WithinLines)
    (hread : c.Readable) (S : Sending σ α) (as : List α) (s : σ)
    (h : run S.step S.start as = some s) (henc : AllEncodable (S.accepted s)) :
    (∀ n, (serverReads ((c.connectBytes ++ S.wire s).take n)).1 <+:
        c.connectFrame :: framesOf (S.accepted s)) ∧
      (∀ n, c.connectBytes.length ≤ n → ∃ fs,
        (serverReads ((c.connectBytes ++ S.wire s).take n)).1 = c.connectFrame :: fs) ∧
      c.connectFrame.toClientMsg = c.readBack := by
  refine ⟨fun n => ?_, fun n hn => ?_, toClientMsg_connectFrame c⟩
  · refine (serverReads_mono (List.take_prefix _ _)).trans ?_
    rw [serverReads_connectBytes hlines hread]
    exact (List.prefix_cons_inj _).2 (S.ordered h henc)
  · rw [List.take_append, List.take_of_length_le hn, serverReads_connectBytes hlines hread]
    exact ⟨_, rfl⟩

/-- A configuration with its login among the custom headers. -/
def customLogin : Connector := ⟨"h", none, none, [("login", "guest"), ("a", "b:c")], some (10, 0)⟩

theorem serverReads_of_connect_customLogin :
    ∃ s : Direct String, run (Direct.sending String).step (Direct.sending String).start
        [.startSend (.message ⟨.begin "tx", []⟩), .transmit 7] = some s ∧
      customLogin.readBack = .ok ⟨.connect "1.2" "h" (some "guest") none (some (10, 0)),
        [(asBytes "a", asBytes "b:c")]⟩ ∧
      (∀ n, (serverReads ((customLogin.connectBytes ++ s.wire).take n)).1 <+:
          customLogin.connectFrame :: framesOf ((Direct.sending String).accepted s)) ∧
        (∀ n, customLogin.connectBytes.length ≤ n → ∃ fs,
          (serverReads ((customLogin.connectBytes ++ s.wire).take n)).1 =
            customLogin.connectFrame :: fs) ∧
        customLogin.connectFrame.toClientMsg = customLogin.readBack := by
  have hlines : customLogin.WithinLines := by
    have hhost : NoEol "h" := by
      rw [NoEol]
      decide +kernel
    refine ⟨hhost, by simp [customLogin], by simp [customLogin], ?_⟩
    decide +kernel
  have hread : customLogin.Readable := by
    refine ⟨by decide, fun n hn => ?_⟩
    have hnone : getContentLength (customLogin.keptHeaders.map lineHeader) = none := by
      decide
    rw [hnone] at hn
    cases hn
  have hfinal : (run (Direct.sending String).step (Direct.sending String).start
      [.startSend (.message ⟨.begin "tx", []⟩), .transmit 7]).map (Direct.sending String).accepted =
        some [(0, .message ⟨.begin "tx", []⟩)] := by
    decide
  obtain ⟨s, hrun, haccepted⟩ := Option.map_eq_some_iff.1 hfinal
  refine ⟨s, hrun, by decide,
    serverReads_of_connect customLogin hlines hread (Direct.sending String) _ s hrun ?_⟩
  rw [haccepted]
  intro p hp
  obtain rfl := List.mem_singleton.1 hp
  exact encodable_of_bare rfl rfl rfl

end Connector

end AsyncStomp
