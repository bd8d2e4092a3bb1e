/-
# Disconnecting

`disconnect` sends a DISCONNECT, reads the stream up to the RECEIPT for it and closes the
transport.  What comes before that RECEIPT is passed over, unless it is an error or the end of
the stream.  A server that copies the receipt of the DISCONNECT to its RECEIPT, byte for byte, is
recognised whatever the receipt is.
-/
import AsyncStomp.Codec.Input
import AsyncStomp.Codec.Output

namespace AsyncStomp

open PartialInput PartialInput.Parser

/-- What the stream yields: a message, an error, or its end. -/
abbrev Yield (ε : Type) := Option (Except ε (Message FromServer))

/-- What a transport answers `disconnect`, in the order in which it is asked. -/
structure Answers (ε : Type) where
  sent : Except ε Unit
  /-- What the stream yields, as far as it has. -/
  items : List (Yield ε)
  closed : Except ε Unit

/-- The calls of a transport that have returned. -/
inductive TransportCall where
  | send (msg : Message ToServer)
  | next
  | close
deriving DecidableEq, Repr

/-- Why `disconnect` fails. -/
inductive DisconnectError (ε : Type) where
  /-- The error of the `send`, of the stream or of the `close`. -/
  | transport (e : ε)
  /-- "Server refused the disconnect: {message}" -/
  | refused (message : String)
  /-- "The server closed the connection without acknowledging the DISCONNECT" -/
  | unacknowledged
deriving DecidableEq, Repr

/-- A `disconnect`: what it has called and what it returned, if it has. -/
structure Disconnecting (ε : Type) where
  calls : List TransportCall
  result : Option (Except (DisconnectError ε) Unit)

/-- The DISCONNECT with this receipt. -/
def disconnectMessage (receipt : String) : Message ToServer :=
  ⟨.disconnect (some receipt), []⟩

section

variable {ε : Type} (receipt : String) (closed : Except ε Unit)

/-- One round of the loop of `disconnect`, if it is the last: what is called and returned. -/
def lastRound : Yield ε → Option (List TransportCall × Except (DisconnectError ε) Unit)
  | none => some ([], .error .unacknowledged)
  | some (.error e) => some ([], .error (.transport e))
  | some (.ok msg) =>
      match msg.content with
      | .receipt receiptId =>
          if receiptId = receipt then some ([.close], closed.mapError .transport) else none
      | .error message _ => some ([], .error (.refused (message.getD "")))
      -- whatever was already on its way, which the disconnect makes moot
      | _ => none

/-- The loop of `disconnect`. -/
def awaitReceipt : List (Yield ε) → Disconnecting ε
  | [] => ⟨[], none⟩
  | item :: items =>
      match lastRound receipt closed item with
      | some (calls, result) => ⟨.next :: calls, some result⟩
      | none =>
          let rest := awaitReceipt items
          ⟨.next :: rest.calls, rest.result⟩

/-- `disconnect` -/
def disconnect (answers : Answers ε) : Disconnecting ε :=
  let message := disconnectMessage receipt
  match answers.sent with
  | .error e => ⟨[.send message], some (.error (.transport e))⟩
  | .ok () =>
      let rest := awaitReceipt receipt answers.closed answers.items
      ⟨.send message :: rest.calls, rest.result⟩

end

/-! ### The loop -/

section Loop

variable {ε : Type} {receipt : String} {closed : Except ε Unit}

/-- A message that is neither an ERROR nor the RECEIPT. -/
def PassedOver (receipt : String) (item : Yield ε) : Prop :=
  ∃ msg, item = some (.ok msg) ∧ (∀ message body, msg.content ≠ .error message body) ∧
    msg.content ≠ .receipt receipt

/-- The RECEIPT. -/
def Acknowledges (receipt : String) (item : Yield ε) : Prop :=
  ∃ msg, item = some (.ok msg) ∧ msg.content = .receipt receipt

/-- The end of the stream, an error of the stream or an ERROR. -/
def BreaksOff (item : Yield ε) : Prop :=
  item = none ∨ (∃ e, item = some (.error e)) ∨
    ∃ msg message body, item = some (.ok msg) ∧ msg.content = .error message body

lemma lastRound_of_passedOver {item : Yield ε} (h : PassedOver receipt item) :
    lastRound receipt closed item = none := by
  obtain ⟨⟨content, extra⟩, rfl, herror, hreceipt⟩ := h
  cases content with
  | connected => rfl
  | message => rfl
  | receipt receiptId =>
      have hne : receiptId ≠ receipt := fun heq => hreceipt (congrArg _ heq)
      exact if_neg hne
  | error message body => exact absurd rfl (herror message body)

lemma lastRound_of_acknowledges {item : Yield ε} (h : Acknowledges receipt item) :
    lastRound receipt closed item = some ([.close], closed.mapError .transport) := by
  obtain ⟨⟨content, extra⟩, rfl, hcontent⟩ := h
  obtain rfl : content = .receipt receipt := hcontent
  exact if_pos rfl

lemma lastRound_of_breaksOff {item : Yield ε} (h : BreaksOff item) :
    ∃ e, lastRound receipt closed item = some ([], .error e) := by
  rcases h with rfl | ⟨e, rfl⟩ | ⟨⟨content, extra⟩, message, body, rfl, hcontent⟩
  · exact ⟨_, rfl⟩
  · exact ⟨_, rfl⟩
  · obtain rfl : content = .error message body := hcontent
    exact ⟨_, rfl⟩

/-- Each item is of one of the three kinds. -/
lemma item_cases (receipt : String) (item : Yield ε) :
    PassedOver receipt item ∨ Acknowledges receipt item ∨ BreaksOff item := by
  rcases item with _ | e | ⟨content, extra⟩
  · exact Or.inr (Or.inr (Or.inl rfl))
  · exact Or.inr (Or.inr (Or.inr (Or.inl ⟨e, rfl⟩)))
  · cases content with
    | connected => exact Or.inl ⟨_, rfl, fun _ _ => nofun, nofun⟩
    | message => exact Or.inl ⟨_, rfl, fun _ _ => nofun, nofun⟩
    | receipt receiptId =>
        by_cases heq : receiptId = receipt
        · exact Or.inr (Or.inl ⟨_, rfl, congrArg _ heq⟩)
        · exact Or.inl ⟨_, rfl, fun _ _ => nofun, fun h => heq (FromServer.receipt.inj h)⟩
    | error message body => exact Or.inr (Or.inr (Or.inr (Or.inr ⟨_, message, body, rfl, rfl⟩)))

/-- What is passed over makes no difference but for the calls. -/
lemma awaitReceipt_append {before : List (Yield ε)}
    (hbefore : ∀ item ∈ before, PassedOver receipt item) (items : List (Yield ε)) :
    awaitReceipt receipt closed (before ++ items) =
      ⟨List.replicate before.length .next ++ (awaitReceipt receipt closed items).calls,
        (awaitReceipt receipt closed items).result⟩ := by
  induction before with
  | nil => rfl
  | cons item before ih =>
      have hrest := ih fun i hi => hbefore i (List.mem_cons_of_mem _ hi)
      have hround : lastRound receipt closed item = none :=
        lastRound_of_passedOver (hbefore item List.mem_cons_self)
      rw [List.cons_append, awaitReceipt, hround]
      simp only [hrest]
      rfl

/-- The first item that is not passed over ends the loop. -/
lemma awaitReceipt_of_lastRound {before rest : List (Yield ε)} {item : Yield ε}
    {calls : List TransportCall} {result : Except (DisconnectError ε) Unit}
    (hbefore : ∀ item ∈ before, PassedOver receipt item)
    (hitem : lastRound receipt closed item = some (calls, result)) :
    awaitReceipt receipt closed (before ++ item :: rest) =
      ⟨List.replicate (before.length + 1) .next ++ calls, some result⟩ := by
  rw [awaitReceipt_append hbefore, awaitReceipt, hitem, List.replicate_succ', List.append_assoc]
  rfl

/-- Either all items are passed over, or there is a first one that is not. -/
lemma exists_first (receipt : String) (items : List (Yield ε)) :
    (∀ item ∈ items, PassedOver receipt item) ∨
      ∃ before item rest, items = before ++ item :: rest ∧
        (∀ i ∈ before, PassedOver receipt i) ∧ (Acknowledges receipt item ∨ BreaksOff item) := by
  induction items with
  | nil => exact Or.inl nofun
  | cons item items ih =>
      rcases item_cases receipt item with hpassed | hlast
      · rcases ih with hall | ⟨before, item', rest, rfl, hbefore, hlast⟩
        · exact Or.inl (List.forall_mem_cons.2 ⟨hpassed, hall⟩)
        · exact Or.inr ⟨item :: before, item', rest, rfl,
            List.forall_mem_cons.2 ⟨hpassed, hbefore⟩, hlast⟩
      · exact Or.inr ⟨[], item, items, rfl, nofun, hlast⟩

end Loop

/-! ### The receipt on the wire -/

/-- A RECEIPT is decoded to the receipt its header stands for. -/
lemma decode_receipt {w : WireFrame} (hcommand : w.frame.hasCommand ["RECEIPT", "receipt"] = true)
    {receipt : String} (hid : fetchHeader w.frame.headers "receipt-id" = some receipt)
    (codec : ClientCodec) (g : Gap) (more : Bytes) :
    ∃ extra, codec.decode (g.bytes ++ (w.bytes ++ more)) =
      (.ok (some ⟨.receipt receipt, extra⟩), dropLineEnding more) := by
  have hreceipt : receiptContent w.frame.headers = .ok (["receipt-id"], .receipt receipt) := by
    rw [receiptContent, expectHeader_of_fetch hid]
    rfl
  have hcontent : w.frame.serverContent = .ok (["receipt-id"], .receipt receipt) := by
    rw [Frame.hasCommand, List.contains_iff_mem, List.map_cons, List.map_cons, List.map_nil,
      List.mem_pair] at hcommand
    rcases hcommand with hname | hname
    · simp only [Frame.serverContent, Frame.hasCommand_of_command hname]
      exact hreceipt
    · simp only [Frame.serverContent, Frame.hasCommand_of_command hname]
      exact hreceipt
  exact ⟨_, ClientCodec.decode_frame_eq_some_iff.2 ⟨Frame.toServerMsg_of_content hcontent, rfl⟩⟩

lemma encodable_disconnectMessage (receipt : String) : (disconnectMessage receipt).Encodable where
  content := rfl
  custom_ne := nofun
  extra_ne := nofun
  body_lt := nofun
  custom_length := nofun
  extra_length := nofun

/-- A server that finds `w` under `receipt` in the DISCONNECT and puts it under `receipt-id` in a
RECEIPT, sends the client what it waits for. -/
def Recognised (receipt : String) : Prop :=
  ∃ f w, parseFrame (encode (.message (disconnectMessage receipt)) []) = .ok f [] ∧
    firstValue f.headers (asBytes "receipt") = some w ∧
      ∀ (codec : ClientCodec) (g : Gap) (wire : WireFrame) (more : Bytes),
        wire.frame.hasCommand ["RECEIPT", "receipt"] = true →
          firstValue wire.frame.headers (asBytes "receipt-id") = some w →
            ∃ extra, codec.decode (g.bytes ++ (wire.bytes ++ more)) =
              (.ok (some ⟨.receipt receipt, extra⟩), dropLineEnding more)

lemma recognised (receipt : String) : Recognised receipt := by
  have hkey : escape (asBytes "receipt") = asBytes "receipt" := by decide
  have hvalue : firstValue (disconnectMessage receipt).onWire.headers (asBytes "receipt") =
      some (escape (asBytes receipt)) := by
    rw [Message.onWire, firstValue_map_escapeHeader _ hkey]
    rfl
  refine ⟨_, _, (encodable_disconnectMessage receipt).parseFrame_encode, hvalue, ?_⟩
  intro codec g wire more hcommand hw
  refine decode_receipt hcommand ?_ codec g more
  rw [fetchHeader, hw, Option.bind_some, unescapeHeaderValue_escape, fromUtf8_asBytes]

/-! ### What `disconnect` does -/

/-- Once the DISCONNECT has been sent, a `disconnect` does what its receipt calls for. -/
structure AwaitsOwn {ε : Type} (receipt : String) (answers : Answers ε) (d : Disconnecting ε) :
    Prop where
  /-- The DISCONNECT is sent once, before any item is consumed. -/
  sent_once : ∃ calls, d.calls = .send (disconnectMessage receipt) :: calls ∧
    ∀ msg, .send msg ∉ calls
  ok_iff : d.result = some (.ok ()) ↔ answers.closed = .ok () ∧
    ∃ before item rest, answers.items = before ++ item :: rest ∧
      (∀ i ∈ before, PassedOver receipt i) ∧ Acknowledges receipt item
  /-- Nothing behind the RECEIPT is consumed. -/
  acknowledged : ∀ before item rest, answers.items = before ++ item :: rest →
    (∀ i ∈ before, PassedOver receipt i) → Acknowledges receipt item →
      d.calls = .send (disconnectMessage receipt) ::
          (List.replicate (before.length + 1) .next ++ [.close]) ∧
        d.result = some (answers.closed.mapError .transport)
  brokenOff : ∀ before item rest, answers.items = before ++ item :: rest →
    (∀ i ∈ before, PassedOver receipt i) → BreaksOff item →
      d.calls = .send (disconnectMessage receipt) :: List.replicate (before.length + 1) .next ∧
        ∃ e, d.result = some (.error e)
  waiting : (∀ i ∈ answers.items, PassedOver receipt i) →
    d.calls = .send (disconnectMessage receipt) :: List.replicate answers.items.length .next ∧
      d.result = none

section Loop

variable {ε : Type} {receipt : String} {closed : Except ε Unit} {before rest : List (Yield ε)}
  {item : Yield ε}

lemma awaitReceipt_of_acknowledges (hbefore : ∀ i ∈ before, PassedOver receipt i)
    (hitem : Acknowledges receipt item) :
    awaitReceipt receipt closed (before ++ item :: rest) =
      ⟨List.replicate (before.length + 1) .next ++ [.close],
        some (closed.mapError .transport)⟩ :=
  awaitReceipt_of_lastRound hbefore (lastRound_of_acknowledges hitem)

lemma awaitReceipt_of_breaksOff (hbefore : ∀ i ∈ before, PassedOver receipt i)
    (hitem : BreaksOff item) :
    ∃ e, awaitReceipt receipt closed (before ++ item :: rest) =
      ⟨List.replicate (before.length + 1) .next, some (.error e)⟩ := by
  obtain ⟨e, he⟩ : ∃ e, lastRound receipt closed item = some ([], .error e) :=
    lastRound_of_breaksOff hitem
  exact ⟨e, (awaitReceipt_of_lastRound hbefore he).trans (by rw [List.append_nil])⟩

lemma awaitReceipt_of_waiting (hbefore : ∀ i ∈ before, PassedOver receipt i) :
    awaitReceipt receipt closed before = ⟨List.replicate before.length .next, none⟩ := by
  have happend : awaitReceipt receipt closed (before ++ []) = _ := awaitReceipt_append hbefore []
  rw [List.append_nil, awaitReceipt, List.append_nil] at happend
  exact happend

/-- The loop sends nothing. -/
lemma send_not_mem_awaitReceipt (msg : Message ToServer) (items : List (Yield ε)) :
    .send msg ∉ (awaitReceipt receipt closed items).calls := by
  rcases exists_first receipt items with hall | ⟨before, item, rest, rfl, hbefore, hitem | hitem⟩
  · rw [awaitReceipt_of_waiting hall]
    exact fun h => nomatch List.eq_of_mem_replicate h
  · rw [awaitReceipt_of_acknowledges hbefore hitem, List.mem_append, List.mem_singleton]
    rintro (h | h)
    · exact nomatch List.eq_of_mem_replicate h
    · cases h
  · obtain ⟨e, he⟩ : ∃ e, awaitReceipt receipt closed (before ++ item :: rest) =
        ⟨_, some (.error e)⟩ := awaitReceipt_of_breaksOff hbefore hitem
    rw [he]
    exact fun h => nomatch List.eq_of_mem_replicate h

/-- The loop ends well exactly with the RECEIPT, and a transport that could be closed. -/
lemma awaitReceipt_eq_ok_iff {items : List (Yield ε)} :
    (awaitReceipt receipt closed items).result = some (.ok ()) ↔ closed = .ok () ∧
      ∃ before item rest, items = before ++ item :: rest ∧
        (∀ i ∈ before, PassedOver receipt i) ∧ Acknowledges receipt item := by
  constructor
  · intro h
    rcases exists_first receipt items with hall | ⟨before, item, rest, rfl, hbefore, hitem | hitem⟩
    · rw [awaitReceipt_of_waiting hall] at h
      cases h
    · rw [awaitReceipt_of_acknowledges hbefore hitem] at h
      cases hclosed : closed with
      | ok _ => exact ⟨rfl, before, item, rest, rfl, hbefore, hitem⟩
      | error e =>
          rw [hclosed] at h
          cases h
    · obtain ⟨e, he⟩ : ∃ e, awaitReceipt receipt closed (before ++ item :: rest) =
          ⟨_, some (.error e)⟩ := awaitReceipt_of_breaksOff hbefore hitem
      rw [he] at h
      cases h
  · rintro ⟨rfl, before, item, rest, rfl, hbefore, hitem⟩
    rw [awaitReceipt_of_acknowledges hbefore hitem]
    rfl

end Loop

lemma awaitsOwn_disconnect {ε : Type} (receipt : String) {answers : Answers ε}
    (hsent : answers.sent = .ok ()) : AwaitsOwn receipt answers (disconnect receipt answers) := by
  have hdisconnect : disconnect receipt answers =
      ⟨.send (disconnectMessage receipt) ::
          (awaitReceipt receipt answers.closed answers.items).calls,
        (awaitReceipt receipt answers.closed answers.items).result⟩ := by
    rw [disconnect, hsent]
  rw [hdisconnect]
  refine ⟨⟨_, rfl, fun msg => send_not_mem_awaitReceipt msg _⟩, awaitReceipt_eq_ok_iff, ?_, ?_, ?_⟩
  · intro before item rest hitems hbefore hitem
    rw [hitems, awaitReceipt_of_acknowledges hbefore hitem]
    exact ⟨rfl, rfl⟩
  · intro before item rest hitems hbefore hitem
    obtain ⟨e, he⟩ := awaitReceipt_of_breaksOff hbefore hitem
    rw [hitems, he]
    exact ⟨rfl, e, rfl⟩
  · intro hall
    rw [awaitReceipt_of_waiting hall]
    exact ⟨rfl, rfl⟩

/-- **A disconnect waits for its own RECEIPT.**  Whatever the receipt is and whatever the stream
yields once the DISCONNECT has been sent, it ends well exactly with the RECEIPT for it, and the
RECEIPT of a server that copies the receipt is that one. -/
theorem disconnect_awaits_own (ε : Type) (receipt : String) :
    (∀ answers : Answers ε, answers.sent = .ok () →
        AwaitsOwn receipt answers (disconnect receipt answers)) ∧
      Recognised receipt :=
  ⟨fun _ hsent => awaitsOwn_disconnect receipt hsent, recognised receipt⟩

/-- Another RECEIPT is passed over, and what follows the right one is left. -/
example : (disconnect (ε := Unit) "bye"
      ⟨.ok (), [some (.ok ⟨.receipt "7", []⟩), some (.ok ⟨.receipt "bye", []⟩), none],
        .ok ()⟩).calls =
    [.send (disconnectMessage "bye"), .next, .next, .close] := by
  decide

end AsyncStomp
