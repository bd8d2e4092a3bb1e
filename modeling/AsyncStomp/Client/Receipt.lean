/-
# What a receipt means

A client and a server over a network that keeps what is sent in order.  The server acknowledges what
it has read, and only that: a RECEIPT answers a frame that asks for it.  Then a RECEIPT that the
stream yields confirms everything that was sent up to a message that asks for it
(`confirmed_of_run`), and after a `disconnect` that ends well the server has read all there is
(`all_read_of_disconnect`).  The writing half is that of a connection with a pump or of one
without.
-/
import AsyncStomp.Client.Disconnect
import AsyncStomp.Client.Supervise.Sound
import AsyncStomp.Client.Wire
import AsyncStomp.Codec.Bound
import AsyncStomp.Codec.Views

namespace AsyncStomp

open PartialInput PartialInput.Parser Tasks

/-! ### Sending -/

/-- The half of a connection that writes: its steps, the items it has taken and its wire. -/
structure Sending (σ α : Type) where
  start : σ
  step : σ → α → Option σ
  accepted : σ → List (ℕ × Item)
  wire : σ → Bytes
  grows : ∀ {as s bs s'}, run step start as = some s → run step s bs = some s' →
    wire s <+: wire s'
  /-- What a server reads on the wire is the beginning of what was accepted. -/
  ordered : ∀ {as s}, run step start as = some s → AllEncodable (accepted s) →
    (serverReads (wire s)).1 <+: framesOf (accepted s)

/-- A connection with a pump. -/
def Pumped.sending (ch : Mpsc (ℕ × Item)) (ε : Type) (interval : Option ℕ) :
    Sending (Pumped ch ε) (Pumped.Action ε) where
  start := .start ch ε
  step := Pumped.step interval
  accepted s := AsyncStomp.accepted s.log
  wire := Pumped.wire
  grows h h' := (Pumped.later_of_run (Pumped.good_of_run h) h').2.2
  ordered h henc := (Pumped.good_of_run h).ordered_link henc

/-- A connection without one. -/
def Direct.sending (ε : Type) : Sending (Direct ε) (Direct.Action ε) where
  start := .start ε
  step := Direct.step
  accepted s := handedItems s.log
  wire := Direct.wire
  grows _ h' := (Direct.later_of_run h').2
  ordered h henc := by
    obtain ⟨-, -, -, hordered, -⟩ := (Direct.ok_of_run h).served henc
    exact hordered

/-! ### Receipts -/

/-- A frame asks for this receipt, unescaped. -/
def Frame.AsksFor (f : Frame) (receipt : Bytes) : Prop :=
  (firstValue f.headers (asBytes "receipt")).map unescapeHeaderValue = some receipt

instance (f : Frame) (receipt : Bytes) : Decidable (f.AsksFor receipt) :=
  inferInstanceAs (Decidable (_ = _))

/-- A server that has read these bytes may send this frame: if it is a RECEIPT, something there asks
for it. -/
def Entitled (taken : Bytes) (w : WireFrame) : Prop :=
  w.frame.hasCommand ["RECEIPT", "receipt"] = true →
    ∀ v ∈ firstValue w.frame.headers (asBytes "receipt-id"),
      ∃ f ∈ (serverReads taken).1, f.AsksFor (unescapeHeaderValue v)

instance (taken : Bytes) (w : WireFrame) : Decidable (Entitled taken w) :=
  inferInstanceAs (Decidable (_ → ∀ v ∈ firstValue w.frame.headers (asBytes "receipt-id"), _))

lemma Entitled.mono {taken taken' : Bytes} {w : WireFrame} (h : Entitled taken w)
    (htaken : taken <+: taken') : Entitled taken' w := by
  intro hcommand v hv
  obtain ⟨f, hf, hasks⟩ := h hcommand v hv
  exact ⟨f, (serverReads_mono htaken).subset hf, hasks⟩

/-- The message that an item carries asks for this receipt. -/
def Item.AsksFor (item : Item) (receipt : String) : Prop :=
  ∃ msg, item = .message msg ∧
    firstValue msg.toFrame.headers (asBytes "receipt") = some (asBytes receipt)

/-- Where the frame of an item asks for a receipt, the item does. -/
lemma Item.asksFor_of_onWire {item : Item} (henc : item.Encodable) {f : Frame}
    (hf : item.onWire = some f) {receipt : String} (h : f.AsksFor (asBytes receipt)) :
    item.AsksFor receipt := by
  cases item with
  | heartbeat => cases hf
  | message msg =>
      obtain rfl : msg.onWire = f := Option.some.inj hf
      refine ⟨msg, rfl, ?_⟩
      have hkey : escape (asBytes "receipt") = asBytes "receipt" := by decide
      rw [Frame.AsksFor, Message.onWire, firstValue_map_escapeHeader _ hkey, Option.map_map] at h
      obtain ⟨v, hv, hvalue⟩ := Option.map_eq_some_iff.1 h
      rw [Function.comp_apply, unescapeHeaderValue_escape] at hvalue
      rw [hv, hvalue]

/-- A RECEIPT was read from the headers of its frame. -/
lemma Frame.receiptContent_of_serverContent {f : Frame} {keys : List String} {receipt : String}
    (h : f.serverContent = .ok (keys, .receipt receipt)) :
    f.hasCommand ["RECEIPT", "receipt"] = true ∧
      receiptContent f.headers = .ok (keys, .receipt receipt) := by
  rw [Frame.serverContent] at h
  by_cases hconnected : f.hasCommand ["CONNECTED", "connected"]
  · rw [if_pos hconnected] at h
    obtain ⟨version, -, hnone⟩ := except_bind_eq_ok.1 h
    cases hnone
  rw [if_neg hconnected] at h
  by_cases hmessage : f.hasCommand ["MESSAGE", "message"]
  · rw [if_pos hmessage] at h
    obtain ⟨destination, -, h⟩ := except_bind_eq_ok.1 h
    obtain ⟨messageId, -, h⟩ := except_bind_eq_ok.1 h
    obtain ⟨subscription, -, h⟩ := except_bind_eq_ok.1 h
    obtain ⟨headers, -, hnone⟩ := except_bind_eq_ok.1 h
    cases hnone
  rw [if_neg hmessage] at h
  by_cases hreceipt : f.hasCommand ["RECEIPT", "receipt"]
  · rw [if_pos hreceipt] at h
    exact ⟨hreceipt, h⟩
  rw [if_neg hreceipt] at h
  by_cases herror : f.hasCommand ["ERROR", "error"]
  · rw [if_pos herror] at h
    cases h
  · rw [if_neg herror] at h
    cases h

/-- A RECEIPT is decoded from a frame that brings it. -/
lemma receipt_of_toServerMsg {f : Frame} {msg : Message FromServer} {receipt : String}
    (h : f.toServerMsg = .ok msg) (hmsg : msg.content = .receipt receipt) :
    f.hasCommand ["RECEIPT", "receipt"] = true ∧
      ∃ v, firstValue f.headers (asBytes "receipt-id") = some v ∧
        unescapeHeaderValue v = asBytes receipt := by
  obtain ⟨⟨keys, content⟩, hcontent, hpure⟩ := except_bind_eq_ok.1 h
  obtain rfl : _ = msg := Except.ok.inj hpure
  obtain rfl : content = .receipt receipt := hmsg
  obtain ⟨hcommand, hreceipt⟩ := Frame.receiptContent_of_serverContent hcontent
  obtain ⟨receiptId, hfetch, hid⟩ := except_bind_eq_ok.1 hreceipt
  cases hid
  obtain ⟨v, hv, hvalue⟩ := Option.bind_eq_some_iff.1 (expectHeader_eq_ok_iff.1 hfetch)
  exact ⟨hcommand, v, hv, fromUtf8_eq_some.1 hvalue⟩

/-! ### A client and a server -/

/-- What the server has sent with its CONNECTED, and what the handshake has read of it. -/
structure Greeting where
  frames : List (Gap × WireFrame)
  leftover : Bytes
  leftover_prefix : leftover <+: streamOf frames []
  /-- There is nothing to acknowledge yet. -/
  entitled : ∀ p ∈ frames, Entitled [] p.2

/-- A client and its server. -/
structure Session (σ : Type) where
  out : σ
  inp : ClientTransport
  /-- What the server has read. -/
  taken : Bytes
  /-- What the server has sent. -/
  replies : List (Gap × WireFrame)

namespace Session

variable {σ α : Type}

/-- What happens next. -/
inductive Action (α : Type) where
  | send (a : α)
  | stream (a : ClientTransport.Action)
  /-- The server reads so many bytes. -/
  | take (k : ℕ)
  /-- The server sends a frame, behind some line ends. -/
  | reply (g : Gap) (w : WireFrame)

/-- Both ends once they are connected. -/
def start (S : Sending σ α) (codec : ClientCodec) (beats : Bool) (greeting : Greeting)
    (incoming : Option ℕ) (automatic : Bool) (lastRead quiet : ℕ) : Session σ where
  out := S.start
  inp := .established codec beats greeting.leftover incoming automatic lastRead quiet
  taken := []
  replies := greeting.frames

/-- One step, if it is possible. -/
def step (S : Sending σ α) (greeting : Greeting) (s : Session σ) : Action α → Option (Session σ)
  | .send a => (S.step s.out a).map fun out => { s with out := out }
  | .stream a =>
      match s.inp.step a with
      | some inp =>
          -- nothing arrives but what the server has sent, in order
          if greeting.leftover ++ ClientTransport.arrivedBytes inp.log <+:
              streamOf s.replies [] then
            some { s with inp := inp }
          else none
      | none => none
  | .take k => some { s with taken := (S.wire s.out).take (s.taken.length + k) }
  | .reply g w =>
      if Entitled s.taken w then some { s with replies := s.replies ++ [(g, w)] } else none

lemma streamOf_append (ws : List (Gap × WireFrame)) (g : Gap) (w : WireFrame) :
    streamOf (ws ++ [(g, w)]) [] = streamOf ws [] ++ (g.bytes ++ w.bytes) := by
  induction ws with
  | nil => simp [streamOf]
  | cons p ws ih =>
      obtain ⟨g', w'⟩ := p
      rw [List.cons_append, streamOf, streamOf, ih, List.append_assoc, List.append_assoc]

/-- What holds of both ends at any time. -/
structure Ok (S : Sending σ α) (codec : ClientCodec) (greeting : Greeting) (quiet : ℕ)
    (incoming : Option ℕ) (automatic : Bool) (s : Session σ) : Prop where
  reached : ∃ as, run S.step S.start as = some s.out
  inp : ClientTransport.Inv codec greeting.leftover quiet incoming automatic s.inp
  taken : s.taken <+: S.wire s.out
  arrived : greeting.leftover ++ ClientTransport.arrivedBytes s.inp.log <+: streamOf s.replies []
  entitled : ∀ p ∈ s.replies, Entitled s.taken p.2

variable {S : Sending σ α} {codec : ClientCodec} {greeting : Greeting} {quiet : ℕ}
  {incoming : Option ℕ} {automatic : Bool} {s s' : Session σ}

lemma Ok.preserve (h : s.Ok S codec greeting quiet incoming automatic) {a : Action α}
    (hstep : s.step S greeting a = some s') : s'.Ok S codec greeting quiet incoming automatic := by
  cases a with
  | send a =>
      obtain ⟨out, hout, rfl⟩ := Option.map_eq_some_iff.1 hstep
      obtain ⟨as, has⟩ := h.reached
      have hone : run S.step s.out [a] = some out := by
        rw [run_cons, hout]
        rfl
      refine ⟨⟨as ++ [a], ?_⟩, h.inp, h.taken.trans (S.grows has hone), h.arrived, h.entitled⟩
      rw [run_append, has]
      exact hone
  | stream a =>
      cases hinp : s.inp.step a with
      | none => simp [step, hinp] at hstep
      | some inp =>
          simp only [step, hinp] at hstep
          obtain ⟨harrived, ⟨⟩⟩ := Option.ite_none_right_eq_some.1 hstep
          exact ⟨h.reached, h.inp.preserve (ClientTransport.move_of_step a hinp), h.taken, harrived,
            h.entitled⟩
  | take k =>
      cases hstep
      refine ⟨h.reached, h.inp, List.take_prefix _ _, h.arrived, fun p hp => ?_⟩
      have hlen := h.taken.length_le
      refine (h.entitled p hp).mono (List.prefix_of_prefix_length_le h.taken
        (List.take_prefix _ _) ?_)
      rw [List.length_take]
      omega
  | reply g w =>
      obtain ⟨hentitled, ⟨⟩⟩ := Option.ite_none_right_eq_some.1 hstep
      refine ⟨h.reached, h.inp, h.taken, h.arrived.trans ?_, ?_⟩
      · rw [streamOf_append]
        exact List.prefix_append _ _
      · exact List.forall_mem_append.2 ⟨h.entitled, by simpa using hentitled⟩

lemma ok_start (S : Sending σ α) (codec : ClientCodec) (beats : Bool) (greeting : Greeting)
    (incoming : Option ℕ) (automatic : Bool) (lastRead quiet : ℕ) :
    (start S codec beats greeting incoming automatic lastRead quiet).Ok S codec greeting quiet
      incoming automatic where
  reached := ⟨[], rfl⟩
  inp := .established codec beats greeting.leftover incoming automatic lastRead quiet
  taken := List.nil_prefix
  arrived := by
    have hnil : greeting.leftover ++ ClientTransport.arrivedBytes [] = greeting.leftover :=
      List.append_nil _
    exact hnil.symm ▸ greeting.leftover_prefix
  entitled := greeting.entitled

/-- What is decoded of a stream was converted from its frames. -/
lemma exists_frame_of_mem_drain (codec : ClientCodec) {ws : List (Gap × WireFrame)}
    {msg : Message FromServer} (h : msg ∈ (codec.drain (streamOf ws [])).items) :
    ∃ p ∈ ws, p.2.frame.toServerMsg = .ok msg := by
  induction ws with
  | nil =>
      have hnil : codec.drain (streamOf [] []) = ⟨[], .ok []⟩ :=
        ClientCodec.drain_gap ⟨[], by simp⟩
      rw [hnil] at h
      cases h
  | cons p ws ih =>
      obtain ⟨g, w⟩ := p
      rw [ClientCodec.drain_streamOf_cons] at h
      cases hmsg : w.frame.toServerMsg with
      | error e =>
          simp only [hmsg] at h
          cases h
      | ok first =>
          simp only [hmsg, Run.items_after, List.singleton_append, List.mem_cons] at h
          rcases h with rfl | h
          · exact ⟨(g, w), List.mem_cons_self, hmsg⟩
          · obtain ⟨p, hp, hconv⟩ := ih h
            exact ⟨p, List.mem_cons_of_mem _ hp, hconv⟩

/-- A RECEIPT that the stream yields answers a frame that the server has read. -/
lemma Ok.exists_asksFor (h : s.Ok S codec greeting quiet incoming automatic)
    {msg : Message FromServer} (hmem : msg ∈ ClientTransport.messages
      (ClientTransport.beforeEnd s.inp.log)) {receipt : String}
    (hmsg : msg.content = .receipt receipt) :
    ∃ f ∈ (serverReads s.taken).1, f.AsksFor (asBytes receipt) := by
  have horder := h.inp.in_order.trans (codec.drain_items_mono h.arrived)
  obtain ⟨p, hp, hconv⟩ := exists_frame_of_mem_drain codec (horder.subset hmem)
  obtain ⟨hcommand, v, hv, hvalue⟩ := receipt_of_toServerMsg hconv hmsg
  rw [← hvalue]
  exact h.entitled p hp hcommand v hv

/-- A frame of some items comes from one of them, and the frames of those in front of it come
first. -/
lemma exists_item_of_mem {items : List (ℕ × Item)} {fs : List Frame} (hfs : fs <+: framesOf items)
    {f : Frame} (hf : f ∈ fs) :
    ∃ before p after, items = before ++ p :: after ∧ p.2.onWire = some f ∧
      framesOf (before ++ [p]) <+: fs := by
  induction items generalizing fs with
  | nil =>
      obtain rfl := List.prefix_nil.1 hfs
      cases hf
  | cons p items ih =>
      cases hwire : p.2.onWire with
      | none =>
          have hskip : ∀ ps, framesOf (p :: ps) = framesOf ps := fun ps => by
            simp [framesOf, hwire]
          rw [hskip] at hfs
          obtain ⟨before, q, after, rfl, hq, hbefore⟩ := ih hfs hf
          refine ⟨p :: before, q, after, rfl, hq, ?_⟩
          rwa [List.cons_append, hskip]
      | some g =>
          have hnext : ∀ ps, framesOf (p :: ps) = g :: framesOf ps := fun ps => by
            simp [framesOf, hwire]
          rw [hnext] at hfs
          rcases List.prefix_cons_iff.1 hfs with rfl | ⟨rest, rfl, hrest⟩
          · cases hf
          rcases List.mem_cons.1 hf with rfl | hf
          · exact ⟨[], p, items, rfl, hwire, by rw [List.nil_append, hnext]; simp [framesOf]⟩
          · obtain ⟨before, q, after, rfl, hq, hbefore⟩ := ih hrest hf
            refine ⟨p :: before, q, after, rfl, hq, ?_⟩
            rw [List.cons_append, hnext]
            exact (List.prefix_cons_inj g).2 hbefore

/-- Where a RECEIPT was yielded, the server has read everything up to an item that asks for it. -/
lemma Ok.confirmed (h : s.Ok S codec greeting quiet incoming automatic)
    (henc : AllEncodable (S.accepted s.out)) {msg : Message FromServer}
    (hmem : msg ∈ ClientTransport.messages (ClientTransport.beforeEnd s.inp.log))
    {receipt : String} (hmsg : msg.content = .receipt receipt) :
    ∃ before p after, S.accepted s.out = before ++ p :: after ∧ p.2.AsksFor receipt ∧
      framesOf (before ++ [p]) <+: (serverReads s.taken).1 ∧
        (serverReads s.taken).1 <+: framesOf (S.accepted s.out) := by
  obtain ⟨f, hf, hasks⟩ := h.exists_asksFor hmem hmsg
  obtain ⟨has, hreached⟩ := h.reached
  have hread := (serverReads_mono h.taken).trans (S.ordered hreached henc)
  obtain ⟨before, p, after, heq, hwire, hbefore⟩ := exists_item_of_mem hread hf
  have hp : p.2.Encodable := henc p (by rw [heq]; simp)
  exact ⟨before, p, after, heq, Item.asksFor_of_onWire hp hwire hasks, hbefore, hread⟩

lemma ok_of_run {beats : Bool} {lastRead : ℕ} {as : List (Action α)}
    (h : run (step S greeting) (start S codec beats greeting incoming automatic lastRead quiet) as =
      some s) : s.Ok S codec greeting quiet incoming automatic :=
  run_invariant (fun _ _ _ hstep hs => hs.preserve hstep) h
    (ok_start S codec beats greeting incoming automatic lastRead quiet)

/-- **A RECEIPT confirms what was sent.**  In every run of a client and its server in which every
item can be encoded: where the stream yields a RECEIPT before its first error, the server has read
the frames of all items up to one that asks for it. -/
theorem confirmed_of_run (S : Sending σ α) (codec : ClientCodec) (beats : Bool)
    (greeting : Greeting) (incoming : Option ℕ) (automatic : Bool) (lastRead quiet : ℕ)
    (as : List (Action α))
    (h : run (step S greeting) (start S codec beats greeting incoming automatic lastRead quiet) as =
      some s)
    (henc : AllEncodable (S.accepted s.out)) (msg : Message FromServer)
    (hmem : msg ∈ ClientTransport.messages (ClientTransport.beforeEnd s.inp.log))
    (receipt : String) (hmsg : msg.content = .receipt receipt) :
    ∃ before p after, S.accepted s.out = before ++ p :: after ∧ p.2.AsksFor receipt ∧
      framesOf (before ++ [p]) <+: (serverReads s.taken).1 ∧
        (serverReads s.taken).1 <+: framesOf (S.accepted s.out) :=
  (ok_of_run h).confirmed henc hmem hmsg

/-- A `disconnect` that ends well has seen its RECEIPT. -/
lemma exists_receipt_of_disconnect {ε : Type} {receipt : String} {answers : Answers ε}
    (h : (disconnect receipt answers).result = some (.ok ())) :
    ∃ msg, some (.ok msg) ∈ answers.items ∧ msg.content = .receipt receipt := by
  cases hsent : answers.sent with
  | error e =>
      rw [disconnect, hsent] at h
      cases h
  | ok u =>
      rw [disconnect, hsent] at h
      obtain ⟨-, before, item, rest, hitems, -, msg, rfl, hmsg⟩ := awaitReceipt_eq_ok_iff.1 h
      exact ⟨msg, by rw [hitems]; simp, hmsg⟩

/-- **After a `disconnect` the server has read everything.**  In every run of a client and its
server in which every item can be encoded: where a DISCONNECT is the last item, and no other asks
for its receipt, and `disconnect`, given what the stream has yielded before its first error, ends
well, the server has read the frames of all items. -/
theorem all_read_of_disconnect (S : Sending σ α) (codec : ClientCodec) (beats : Bool)
    (greeting : Greeting) (incoming : Option ℕ) (automatic : Bool) (lastRead quiet : ℕ)
    (as : List (Action α))
    (h : run (step S greeting) (start S codec beats greeting incoming automatic lastRead quiet) as =
      some s)
    (henc : AllEncodable (S.accepted s.out)) (receipt : String) (before : List (ℕ × Item)) (n : ℕ)
    (hlast : S.accepted s.out = before ++ [(n, .message (disconnectMessage receipt))])
    (hfresh : ∀ p ∈ before, ¬ p.2.AsksFor receipt) (ε : Type) (answers : Answers ε)
    (hitems : ∀ msg, some (.ok msg) ∈ answers.items →
      msg ∈ ClientTransport.messages (ClientTransport.beforeEnd s.inp.log))
    (hok : (disconnect receipt answers).result = some (.ok ())) :
    (serverReads s.taken).1 = framesOf (S.accepted s.out) := by
  obtain ⟨msg, hmsg, hreceipt⟩ := exists_receipt_of_disconnect hok
  obtain ⟨front, p, after, heq, hasks, hread, hupto⟩ :=
    (ok_of_run h).confirmed henc (hitems msg hmsg) hreceipt
  -- what asks for the receipt is the DISCONNECT, with nothing behind it
  have hafter : after = [] := by
    rcases List.eq_nil_or_concat after with hnil | ⟨init, x, rfl⟩
    · exact hnil
    · rw [hlast, List.concat_eq_append, ← List.cons_append, ← List.append_assoc] at heq
      have hbefore := List.append_inj_left' heq rfl
      exact absurd hasks (hfresh p (by rw [hbefore]; simp))
  rw [hafter] at heq
  rw [← heq] at hread
  exact hupto.eq_of_length (Nat.le_antisymm hupto.length_le hread.length_le)

/-! ### A session that is closed -/

/-- The RECEIPT for `bye`. -/
def byeReceipt : WireFrame :=
  { ClientCodec.receiptFrame with
    headers := [.ofStrings "receipt-id" "bye" (by decide +kernel)]
    body := []
    body_fits := BodyFits.of_none (by decide) List.not_mem_nil }

/-- A greeting with nothing behind the CONNECTED. -/
def quietGreeting : Greeting := ⟨[], [], List.prefix_rfl, nofun⟩

/-- A BEGIN, then a DISCONNECT while the first is written, and the RECEIPT once both are read. -/
def closingSession : List (Action (Direct.Action String)) :=
  [.send (.startSend (.message ⟨.begin "tx", []⟩)), .send (.transmit 3),
    .send (.startSend (.message (disconnectMessage "bye"))), .send (.transmit 100), .take 4,
    .take 100, .reply ⟨[lf], by decide +kernel⟩ byeReceipt,
    .stream (.arrive ([lf] ++ byeReceipt.bytes)), .stream .pollNext, .stream .decode,
    .stream (.read 100), .stream .decode]

/-- The items of `closingSession`. -/
def closingItems : List (ℕ × Item) :=
  [(0, .message ⟨.begin "tx", []⟩), (1, .message (disconnectMessage "bye"))]

lemma allEncodable_closingItems : AllEncodable closingItems := by
  intro p hp
  have hitems : p.2 = .message ⟨.begin "tx", []⟩ ∨ p.2 = .message (disconnectMessage "bye") := by
    revert p
    decide
  rcases hitems with hitem | hitem
  · rw [hitem]
    exact encodable_of_bare rfl rfl rfl
  · rw [hitem]
    exact encodable_disconnectMessage "bye"

/-- What `closingSession` comes to. -/
lemma run_closingSession :
    ∃ s : Session (Direct String),
      run (step (Direct.sending String) quietGreeting)
          (start (Direct.sending String) ⟨100⟩ false quietGreeting none false 0 0)
          closingSession = some s ∧
        (Direct.sending String).accepted s.out = closingItems ∧
          ClientTransport.messages (ClientTransport.beforeEnd s.inp.log) =
            [⟨.receipt "bye", []⟩] := by
  have hfinal : (run (step (Direct.sending String) quietGreeting)
      (start (Direct.sending String) ⟨100⟩ false quietGreeting none false 0 0) closingSession).map
        (fun s => ((Direct.sending String).accepted s.out,
          ClientTransport.messages (ClientTransport.beforeEnd s.inp.log))) =
      some (closingItems, [⟨.receipt "bye", []⟩]) := by
    decide
  obtain ⟨s, hrun, heq⟩ := Option.map_eq_some_iff.1 hfinal
  obtain ⟨haccepted, hmessages⟩ := Prod.mk.inj heq
  exact ⟨s, hrun, haccepted, hmessages⟩

theorem confirmed_of_run_closingSession :
    ∃ s : Session (Direct String),
      run (step (Direct.sending String) quietGreeting)
          (start (Direct.sending String) ⟨100⟩ false quietGreeting none false 0 0)
          closingSession = some s ∧
        ∃ before p after, (Direct.sending String).accepted s.out = before ++ p :: after ∧
          p.2.AsksFor "bye" ∧ framesOf (before ++ [p]) <+: (serverReads s.taken).1 ∧
            (serverReads s.taken).1 <+: framesOf ((Direct.sending String).accepted s.out) := by
  obtain ⟨s, hrun, haccepted, hmessages⟩ := run_closingSession
  have henc : AllEncodable ((Direct.sending String).accepted s.out) :=
    haccepted ▸ allEncodable_closingItems
  exact ⟨s, hrun, confirmed_of_run (Direct.sending String) ⟨100⟩ false quietGreeting none false 0 0
    closingSession hrun henc ⟨.receipt "bye", []⟩ (by simp [hmessages]) "bye" rfl⟩

theorem all_read_of_disconnect_closingSession :
    ∃ s : Session (Direct String),
      run (step (Direct.sending String) quietGreeting)
          (start (Direct.sending String) ⟨100⟩ false quietGreeting none false 0 0)
          closingSession = some s ∧
        (serverReads s.taken).1 = framesOf closingItems := by
  obtain ⟨s, hrun, haccepted, hmessages⟩ := run_closingSession
  have henc : AllEncodable ((Direct.sending String).accepted s.out) :=
    haccepted ▸ allEncodable_closingItems
  have hfresh : ∀ p ∈ [((0 : ℕ), Item.message ⟨.begin "tx", []⟩)], ¬ p.2.AsksFor "bye" := by
    intro p hp
    obtain rfl := List.mem_singleton.1 hp
    rintro ⟨msg, hmsg, hasks⟩
    cases hmsg
    revert hasks
    decide
  have hread := all_read_of_disconnect (Direct.sending String) ⟨100⟩ false quietGreeting none false
    0 0 closingSession hrun henc "bye" [(0, .message ⟨.begin "tx", []⟩)] 1 haccepted hfresh Unit
    ⟨.ok (), [some (.ok ⟨.receipt "bye", []⟩)], .ok ()⟩ (by simp [hmessages]) (by decide)
  exact ⟨s, hrun, hread.trans (congrArg framesOf haccepted)⟩

end Session

end AsyncStomp
