/-
# Supervision never fires early and costs no message

The stream yields what decoding the arrived bytes at once yields, and declares the server
dead only with nothing left to read or to yield (`ClientTransport.reliable_of_run`).
-/
import AsyncStomp.Client.Supervise.Moves
import AsyncStomp.Codec.Bound

namespace AsyncStomp

open PartialInput Tasks

namespace ClientTransport

/-! ### Logs -/

@[simp] lemma arrivedBytes_append (xs ys : List Event) :
    arrivedBytes (xs ++ ys) = arrivedBytes xs ++ arrivedBytes ys :=
  List.flatMap_append

@[simp] lemma readBytes_append (xs ys : List Event) :
    readBytes (xs ++ ys) = readBytes xs ++ readBytes ys :=
  List.flatMap_append

@[simp] lemma messages_append (xs ys : List Event) :
    messages (xs ++ ys) = messages xs ++ messages ys :=
  List.filterMap_append

lemma quietFor_append (quiet : ℕ) (xs ys : List Event) :
    quietFor quiet (xs ++ ys) = quietFor (quietFor quiet xs) ys :=
  List.foldl_append

lemma beforeEnd_append {log : List Event} (h : beforeEnd log = log) (evs : List Event) :
    beforeEnd (log ++ evs) = log ++ beforeEnd evs := by
  rw [beforeEnd] at h
  rw [beforeEnd, List.takeWhile_append, h, if_pos rfl]
  rfl

/-- What follows the end of the stream is not looked at, nor is what is not a message. -/
lemma messages_beforeEnd_append (log : List Event) {evs : List Event} (hevs : messages evs = []) :
    messages (beforeEnd (log ++ evs)) = messages (beforeEnd log) := by
  have hnil : messages (beforeEnd evs) = [] :=
    List.prefix_nil.1 (hevs ▸ (List.takeWhile_prefix _).filterMap _)
  by_cases h : beforeEnd log = log
  · rw [beforeEnd_append h, messages_append, hnil, List.append_nil, h]
  · have hlen : (log.takeWhile fun ev => !endsStream ev).length ≠ log.length := fun hlen =>
      h ((List.takeWhile_prefix _).eq_of_length hlen)
    rw [beforeEnd, List.takeWhile_append, if_neg hlen]
    rfl

/-- Everything that arrived is decoded and was yielded. -/
def AllYielded (codec : ClientCodec) (leftover : Bytes) (log : List Event) : Prop :=
  ∃ rest, codec.drain (leftover ++ arrivedBytes log) = ⟨messages log, .ok rest⟩

/-- What holds when an event is recorded: of an alarm, and of a poll that finds nothing. -/
def Justified (codec : ClientCodec) (leftover : Bytes) (quiet : ℕ) (incoming : Option ℕ)
    (automatic : Bool) (log : List Event) : Event → Prop
  | .yielded (.error (.noData q p)) =>
      (automatic = true ∧ incoming = some p ∧ q = quietFor quiet log ∧ 2 * p < q) ∧
        readBytes log = arrivedBytes log ∧ AllYielded codec leftover log
  | .pending => readBytes log = arrivedBytes log ∧ AllYielded codec leftover log
  | _ => True

/-- A stream that raises no false alarm and yields what arrived. -/
structure Reliable (codec : ClientCodec) (leftover : Bytes) (quiet : ℕ) (incoming : Option ℕ)
    (automatic : Bool) (log : List Event) : Prop where
  /-- An alarm is raised only with supervision on, everything read and yielded, and no byte read for
  more than twice the interval; a poll returns `Pending` only with everything read and yielded. -/
  justified : Always (Justified codec leftover quiet incoming automatic) log
  /-- The messages up to the first error or the end of the stream are those of the bytes that
  arrived, in order. -/
  in_order : messages (beforeEnd log) <+: (codec.drain (leftover ++ arrivedBytes log)).items

/-! ### The invariant -/

/-- Neither an error nor the end was yielded. -/
def Live (t : ClientTransport) : Prop := t.reader.errored = false ∧ t.stage ≠ .ended

/-- What arrived, what was read and when. -/
structure Base (codec : ClientCodec) (quiet : ℕ) (incoming : Option ℕ) (automatic : Bool)
    (t : ClientTransport) : Prop where
  codec_eq : t.codec = codec
  supervise_eq : t.supervise = tolerance incoming automatic
  arrived : arrivedBytes t.log = readBytes t.log ++ t.unread
  clock_eq : t.clock = t.reader.lastRead + quietFor quiet t.log

/-- Decoding goes on in the buffer where it has stopped in the stream. -/
structure GoesOn (codec : ClientCodec) (leftover : Bytes) (t : ClientTransport) : Prop where
  log_eq : beforeEnd t.log = t.log
  continues : ∀ ys, codec.drain (leftover ++ readBytes t.log ++ ys) =
    (codec.drain (t.reader.buffer ++ ys)).after (messages t.log)
  settled : t.reader.readable = false →
    codec.decode t.reader.buffer = (.ok none, t.reader.buffer)

structure Inv (codec : ClientCodec) (leftover : Bytes) (quiet : ℕ) (incoming : Option ℕ)
    (automatic : Bool) (t : ClientTransport) : Prop
    extends Base codec quiet incoming automatic t,
      Reliable codec leftover quiet incoming automatic t.log where
  busy : t.stage = .decoding ∨ t.stage = .reading → t.reader.errored = false
  reading : t.stage = .reading → t.reader.readable = false
  goes_on : t.Live → GoesOn codec leftover t

variable {codec : ClientCodec} {leftover : Bytes} {quiet : ℕ} {incoming : Option ℕ}
  {automatic : Bool} {t t' : ClientTransport}

/-- Nothing arrives and nothing is read when the reader goes on with what it has. -/
lemma Base.advance (h : Base codec quiet incoming automatic t) {r : Reader} (stage : Stage)
    {events : List Event} (hlast : r.lastRead = t.reader.lastRead)
    (harrived : arrivedBytes events = []) (hread : readBytes events = [])
    (hquiet : ∀ q, quietFor q events = q) :
    Base codec quiet incoming automatic (t.advance r stage events) := by
  refine ⟨h.codec_eq, h.supervise_eq, ?_, ?_⟩
  · show arrivedBytes (t.log ++ events) = readBytes (t.log ++ events) ++ t.unread
    rw [arrivedBytes_append, readBytes_append, harrived, hread, List.append_nil, List.append_nil,
      h.arrived]
  · show t.clock = (t.advance r stage events).reader.lastRead + quietFor quiet (t.log ++ events)
    rw [reader_advance, hlast, quietFor_append, hquiet, h.clock_eq]

lemma Base.preserve (h : Base codec quiet incoming automatic t) (hm : Move t t') :
    Base codec quiet incoming automatic t' := by
  cases hm with
  | arrive bs =>
      refine ⟨h.codec_eq, h.supervise_eq, ?_, ?_⟩
      · show arrivedBytes (t.log ++ _) = readBytes (t.log ++ _) ++ (t.unread ++ bs)
        rw [arrivedBytes_append, readBytes_append, h.arrived]
        simp [arrivedBytes, readBytes]
      · show t.clock = t.reader.lastRead + quietFor quiet (t.log ++ _)
        rw [quietFor_append, h.clock_eq]
        rfl
  | hangUp => exact ⟨h.codec_eq, h.supervise_eq, h.arrived, h.clock_eq⟩
  | tick d =>
      refine ⟨h.codec_eq, h.supervise_eq, ?_, ?_⟩
      · show arrivedBytes (t.log ++ _) = readBytes (t.log ++ _) ++ t.unread
        rw [arrivedBytes_append, readBytes_append, h.arrived]
        simp [arrivedBytes, readBytes]
      · show t.clock + d = t.reader.lastRead + quietFor quiet (t.log ++ _)
        rw [quietFor_append, h.clock_eq, Nat.add_assoc]
        rfl
  | finish hlast hevents =>
      rcases hevents with rfl | rfl
      · exact h.advance _ hlast rfl rfl fun _ => rfl
      · exact h.advance _ hlast rfl rfl fun _ => rfl
  | start => exact h.advance _ rfl rfl rfl fun _ => rfl
  | yield => exact h.advance _ rfl rfl rfl fun _ => rfl
  | fail _ hlast => exact h.advance _ hlast rfl rfl fun _ => rfl
  | starve => exact h.advance _ rfl rfl rfl fun _ => rfl
  | @receive bs rest hstage hunread hne =>
      have hempty : bs.isEmpty = false := by simpa using hne
      refine ⟨h.codec_eq, h.supervise_eq, ?_, ?_⟩
      · show arrivedBytes (t.log ++ _) = readBytes (t.log ++ _) ++ rest
        rw [arrivedBytes_append, readBytes_append, h.arrived, hunread]
        simp [arrivedBytes, readBytes]
      · show t.clock = (Transport.setReader t.transport _).reader.lastRead +
          quietFor quiet (t.log ++ [.read bs])
        rw [Transport.reader_setReader, quietFor_append]
        simp only [pollRead, hempty, quietFor, List.foldl_cons, List.foldl_nil, Bool.false_eq_true,
          if_false, Nat.add_zero]
  | eof => exact h.advance _ (by simp [pollRead]) rfl rfl fun _ => rfl
  | quiet =>
      rcases t.pollServerTimeout_cases with hev | ⟨_, -, -, hev⟩
      · rw [hev]
        exact h.advance _ rfl rfl rfl fun _ => rfl
      · rw [hev]
        exact h.advance _ rfl rfl rfl fun _ => rfl

/-! ### What is recorded -/

/-- An event that yields no message. -/
lemma Reliable.concat {log : List Event}
    (h : Reliable codec leftover quiet incoming automatic log) {ev : Event}
    (hmessages : messages [ev] = [])
    (hev : Justified codec leftover quiet incoming automatic log ev) :
    Reliable codec leftover quiet incoming automatic (log ++ [ev]) := by
  refine ⟨always_concat.2 ⟨h.justified, hev⟩, ?_⟩
  have hprefix : leftover ++ arrivedBytes log <+: leftover ++ arrivedBytes (log ++ [ev]) := by
    rw [arrivedBytes_append, ← List.append_assoc]
    exact List.prefix_append _ _
  rw [messages_beforeEnd_append log hmessages]
  exact h.in_order.trans (codec.drain_items_mono hprefix)

lemma Reliable.concat_message {log : List Event} {msg : Message FromServer}
    (h : Reliable codec leftover quiet incoming automatic log)
    (hmessages : messages (beforeEnd (log ++ [.yielded (.ok msg)])) <+:
      (codec.drain (leftover ++ arrivedBytes (log ++ [.yielded (.ok msg)]))).items) :
    Reliable codec leftover quiet incoming automatic (log ++ [.yielded (.ok msg)]) :=
  ⟨always_concat.2 ⟨h.justified, trivial⟩, hmessages⟩

namespace GoesOn

/-- Nothing is read, decoded or yielded. -/
lemma congr (h : GoesOn codec leftover t) (hlog : beforeEnd t'.log = t'.log)
    (hread : readBytes t'.log = readBytes t.log) (hmessages : messages t'.log = messages t.log)
    (hbuffer : t'.reader.buffer = t.reader.buffer)
    (hreadable : t'.reader.readable = false → t.reader.readable = false) :
    GoesOn codec leftover t' := by
  refine ⟨hlog, ?_, ?_⟩
  · rw [hread, hmessages, hbuffer]
    exact h.continues
  · rw [hbuffer]
    exact fun hfalse => h.settled (hreadable hfalse)

/-- The log of a stream that goes on, with events that end nothing. -/
lemma log_append (h : GoesOn codec leftover t) {events : List Event}
    (hevents : beforeEnd events = events) : beforeEnd (t.log ++ events) = t.log ++ events := by
  rw [beforeEnd_append h.log_eq, hevents]

lemma yield (h : GoesOn codec leftover t) {msg : Message FromServer} {buffer : Bytes}
    (hdecode : codec.decode t.reader.buffer = (.ok (some msg), buffer)) :
    GoesOn codec leftover
      (t.advance { t.reader with buffer := buffer } .idle [.yielded (.ok msg)]) := by
  refine ⟨h.log_append rfl, fun ys => ?_, fun hreadable => ?_⟩
  · have hread : readBytes [.yielded (.ok msg)] = [] := rfl
    rw [reader_advance, log_advance, readBytes_append, messages_append, hread,
      List.append_nil, h.continues ys, ClientCodec.drain_of_decode_some hdecode, Run.after_after]
    rfl
  · -- the decoder was not called where it has found nothing
    rw [reader_advance] at hreadable
    rw [h.settled hreadable] at hdecode
    cases hdecode

lemma starve (h : GoesOn codec leftover t) {buffer : Bytes}
    (hdecode : codec.decode t.reader.buffer = (.ok none, buffer)) :
    GoesOn codec leftover
      (t.advance { t.reader with buffer := buffer, readable := false } .reading []) := by
  refine ⟨h.log_append rfl, fun ys => ?_, fun _ => ?_⟩
  · rw [reader_advance, log_advance, List.append_nil, h.continues ys,
      ClientCodec.drain_of_decode_none hdecode]
  · rw [reader_advance]
    exact ClientCodec.decode_rest hdecode

lemma receive (h : GoesOn codec leftover t) (bs rest : Bytes) :
    GoesOn codec leftover { t.advance { t.pollRead bs with eof := false, readable := true }
      .decoding [.read bs] with unread := rest } := by
  have hreader : ({ t.advance { t.pollRead bs with eof := false, readable := true }
      .decoding [.read bs] with unread := rest } : ClientTransport).reader =
      { t.pollRead bs with eof := false, readable := true } := Transport.reader_setReader _ _
  have hlog : ({ t.advance { t.pollRead bs with eof := false, readable := true }
      .decoding [.read bs] with unread := rest } : ClientTransport).log =
      t.log ++ [.read bs] := rfl
  have hbuffer : (t.pollRead bs).buffer = t.reader.buffer ++ bs := rfl
  have hread : readBytes [.read bs] = bs := List.append_nil bs
  have hmessages : messages [.read bs] = [] := rfl
  refine ⟨h.log_append rfl, fun ys => ?_, fun hreadable => ?_⟩
  · -- the bytes that were read are now at the end of the buffer
    rw [hreader, hlog, hbuffer, readBytes_append, messages_append, hread, hmessages,
      List.append_nil, ← List.append_assoc leftover, List.append_assoc _ bs, List.append_assoc _ bs,
      h.continues]
  · rw [hreader] at hreadable
    cases hreadable

/-- The bytes that are there decode to what was yielded and what is still to come. -/
lemma drain_arrived (h : GoesOn codec leftover t)
    (hbase : Base codec quiet incoming automatic t) :
    codec.drain (leftover ++ arrivedBytes t.log) =
      (codec.drain (t.reader.buffer ++ t.unread)).after (messages t.log) := by
  rw [hbase.arrived, ← List.append_assoc]
  exact h.continues _

lemma in_order (h : GoesOn codec leftover t) (hbase : Base codec quiet incoming automatic t) :
    messages (beforeEnd t.log) <+: (codec.drain (leftover ++ arrivedBytes t.log)).items := by
  rw [h.log_eq, h.drain_arrived hbase, Run.items_after]
  exact List.prefix_append _ _

end GoesOn

namespace Inv

lemma live (h : Inv codec leftover quiet incoming automatic t)
    (hstage : t.stage = .decoding ∨ t.stage = .reading) : t.Live := by
  refine ⟨h.busy hstage, ?_⟩
  rcases hstage with hstage | hstage <;> simp [hstage]

/-- Where a poll has nothing to read, everything that arrived was read and yielded. -/
lemma all_yielded (h : Inv codec leftover quiet incoming automatic t)
    (hstage : t.stage = .reading) (hunread : t.unread = []) :
    readBytes t.log = arrivedBytes t.log ∧ AllYielded codec leftover t.log := by
  have hlive := h.live (Or.inr hstage)
  have hdecode := (h.goes_on hlive).settled (h.reading hstage)
  constructor
  · rw [h.arrived, hunread, List.append_nil]
  · refine ⟨t.reader.buffer, ?_⟩
    rw [(h.goes_on hlive).drain_arrived h.toBase, hunread, List.append_nil,
      ClientCodec.drain_of_decode_rest hdecode, Run.after, List.append_nil]

/-- The check for a quiet server raises no false alarm. -/
lemma justified_pollServerTimeout (h : Inv codec leftover quiet incoming automatic t)
    (hstage : t.stage = .reading) (hunread : t.unread = []) :
    Justified codec leftover quiet incoming automatic t.log t.pollServerTimeout := by
  have hall := h.all_yielded hstage hunread
  rcases t.pollServerTimeout_cases with hev | ⟨tol, hsupervise, hquiet, hev⟩
  · rw [hev]
    exact hall
  · rw [hev]
    rw [h.supervise_eq, tolerance] at hsupervise
    obtain ⟨p, hp, rfl⟩ := Option.map_eq_some_iff.1 hsupervise
    obtain ⟨hautomatic, hincoming⟩ := Option.ite_none_right_eq_some.1 hp
    have hclock : t.clock - t.reader.lastRead = quietFor quiet t.log := by
      rw [h.clock_eq, Nat.add_sub_cancel_left]
    refine ⟨⟨hautomatic, ?_, hclock, ?_⟩, hall⟩
    · rw [hincoming, Nat.mul_div_cancel _ Nat.two_pos]
    · omega

lemma preserve (h : Inv codec leftover quiet incoming automatic t) (hm : Move t t') :
    Inv codec leftover quiet incoming automatic t' := by
  have hbase := h.toBase.preserve hm
  cases hm with
  | arrive bs =>
      refine ⟨hbase, h.toReliable.concat rfl trivial, h.busy, h.reading, fun hlive => ?_⟩
      exact (h.goes_on hlive).congr ((h.goes_on hlive).log_append rfl)
        (by simp [readBytes]) (by simp [messages]) rfl id
  | hangUp =>
      refine ⟨hbase, h.toReliable, h.busy, h.reading, fun hlive => ?_⟩
      exact (h.goes_on hlive).congr (h.goes_on hlive).log_eq rfl rfl rfl id
  | tick d =>
      refine ⟨hbase, h.toReliable.concat rfl trivial, h.busy, h.reading, fun hlive => ?_⟩
      exact (h.goes_on hlive).congr ((h.goes_on hlive).log_append rfl)
        (by simp [readBytes]) (by simp [messages]) rfl id
  | @finish r events _ hevents =>
      have hreliable : Reliable codec leftover quiet incoming automatic (t.log ++ events) := by
        rcases hevents with rfl | rfl
        · exact h.toReliable.concat rfl trivial
        · rw [List.append_cons]
          have hread : Reliable codec leftover quiet incoming automatic (t.log ++ [.read []]) :=
            h.toReliable.concat rfl trivial
          exact hread.concat rfl trivial
      refine ⟨hbase, hreliable, ?_, ?_, fun hlive => absurd rfl hlive.2⟩
      · rintro (hstage | hstage) <;> cases hstage
      · rintro ⟨⟩
  | start hstage herrored =>
      have hlive : t.Live := ⟨herrored, by simp [hstage]⟩
      refine ⟨hbase, ?_, fun _ => ?_, fun hreading => ?_, fun _ => ?_⟩
      · rw [log_advance, List.append_nil]
        exact h.toReliable
      · rw [reader_advance]
        exact herrored
      · -- a poll reads at once only where the decoder has found nothing
        rw [reader_advance]
        cases hreadable : t.reader.readable with
        | false => rfl
        | true =>
            have hdecoding : (if t.reader.readable then Stage.decoding else .reading) = .reading :=
              hreading
            rw [hreadable] at hdecoding
            cases hdecoding
      · have hlog : (t.log ++ []) = t.log := List.append_nil _
        exact (h.goes_on hlive).congr ((h.goes_on hlive).log_append rfl)
          (congrArg readBytes hlog) (congrArg messages hlog)
          (congrArg Reader.buffer (reader_advance _ _ _ _))
          fun hreadable => by rwa [reader_advance] at hreadable
  | @yield msg buffer hstage hdecode =>
      rw [h.codec_eq] at hdecode
      have hgoes := (h.goes_on (h.live (Or.inl hstage))).yield hdecode
      refine ⟨hbase, h.toReliable.concat_message (hgoes.in_order hbase), ?_, ?_, fun _ => hgoes⟩
      · rintro (⟨⟨⟩⟩ | ⟨⟨⟩⟩)
      · rintro ⟨⟩
  | @fail r e hstage hlast herrored hends =>
      -- the error is not that of a quiet server, so it needs no justification
      have hev : Justified codec leftover quiet incoming automatic t.log (.yielded (.error e)) := by
        cases e with
        | noData => cases hends
        | _ => trivial
      refine ⟨hbase, h.toReliable.concat rfl hev, ?_, ?_, fun hlive => ?_⟩
      · rintro (⟨⟨⟩⟩ | ⟨⟨⟩⟩)
      · rintro ⟨⟩
      · have hlive' := hlive.1
        rw [reader_advance, herrored] at hlive'
        cases hlive'
  | @starve buffer hstage hdecode =>
      rw [h.codec_eq] at hdecode
      have hgoes := (h.goes_on (h.live (Or.inl hstage))).starve hdecode
      refine ⟨hbase, ?_, fun _ => ?_, fun _ => ?_, fun _ => hgoes⟩
      · rw [log_advance, List.append_nil]
        exact h.toReliable
      · rw [reader_advance]
        exact h.busy (Or.inl hstage)
      · rw [reader_advance]
  | @receive bs rest hstage hunread hne =>
      have hgoes := (h.goes_on (h.live (Or.inr hstage))).receive bs rest
      refine ⟨hbase, h.toReliable.concat rfl trivial, fun _ => ?_, ?_, fun _ => hgoes⟩
      · show (Transport.setReader t.transport _).reader.errored = false
        rw [Transport.reader_setReader]
        exact h.busy (Or.inr hstage)
      · rintro ⟨⟩
  | eof hstage =>
      have hgoes := h.goes_on (h.live (Or.inr hstage))
      refine ⟨hbase, h.toReliable.concat rfl trivial, fun _ => ?_, ?_, fun _ => ?_⟩
      · rw [reader_advance]
        exact h.busy (Or.inr hstage)
      · rintro ⟨⟩
      · refine hgoes.congr (hgoes.log_append rfl) ?_ ?_ ?_ ?_
        · exact (readBytes_append _ _).trans (List.append_nil _)
        · exact (messages_append _ _).trans (List.append_nil _)
        · rw [reader_advance]
          exact List.append_nil _
        · rw [reader_advance]
          rintro ⟨⟩
  | quiet hstage hunread =>
      have hgoes := h.goes_on (h.live (Or.inr hstage))
      have hjustified := h.justified_pollServerTimeout hstage hunread
      have hsilent : messages [t.pollServerTimeout] = [] ∧ readBytes [t.pollServerTimeout] = [] ∧
          beforeEnd [t.pollServerTimeout] = [t.pollServerTimeout] := by
        rcases t.pollServerTimeout_cases with hev | ⟨_, -, -, hev⟩ <;> rw [hev] <;>
          exact ⟨rfl, rfl, rfl⟩
      obtain ⟨hmessages, hread, hend⟩ := hsilent
      refine ⟨hbase, h.toReliable.concat hmessages hjustified, ?_, ?_, fun _ => ?_⟩
      · rintro (⟨⟨⟩⟩ | ⟨⟨⟩⟩)
      · rintro ⟨⟩
      · refine hgoes.congr (hgoes.log_append hend) ?_ ?_ ?_ ?_
        · exact (readBytes_append _ _).trans (by rw [hread, List.append_nil])
        · exact (messages_append _ _).trans (by rw [hmessages, List.append_nil])
        · rw [reader_advance]
        · rw [reader_advance]
          exact id

/-- The connection starts out with what is left in its buffer. -/
lemma established (codec : ClientCodec) (beats : Bool) (leftover : Bytes)
    (incoming : Option ℕ) (automatic : Bool) (lastRead quiet : ℕ) :
    Inv codec leftover quiet incoming automatic
      (established codec beats leftover incoming automatic lastRead quiet) := by
  have hreader : (ClientTransport.established codec beats leftover incoming automatic lastRead
      quiet).reader = ⟨leftover, true, false, false, lastRead⟩ := by
    cases beats <;> rfl
  refine ⟨⟨rfl, rfl, rfl, ?_⟩, ⟨always_nil _, List.nil_prefix⟩, ?_, ?_, fun _ => ⟨rfl, ?_, ?_⟩⟩
  · rw [hreader]
    rfl
  · rintro (⟨⟨⟩⟩ | ⟨⟨⟩⟩)
  · rintro ⟨⟩
  · intro ys
    rw [hreader]
    exact congrArg (fun xs => codec.drain (xs ++ ys)) (List.append_nil leftover)
  · rw [hreader]
    rintro ⟨⟩

end Inv

/-- **Supervision raises no false alarm and costs no message.** -/
theorem reliable_of_run (codec : ClientCodec) (beats : Bool) (leftover : Bytes)
    (incoming : Option ℕ) (automatic : Bool) (lastRead quiet : ℕ) (as : List Action)
    (h : run step (established codec beats leftover incoming automatic lastRead quiet) as =
      some t) :
    Reliable codec leftover quiet incoming automatic t.log := by
  have hinv : Inv codec leftover quiet incoming automatic t :=
    run_invariant (fun _ a _ hstep hs => hs.preserve (move_of_step a hstep)) h
      (Inv.established codec beats leftover incoming automatic lastRead quiet)
  exact hinv.toReliable

/-- A receipt whose start was left over from the handshake, and a server that then stays quiet. -/
def quietRun : List Action :=
  [.arrive (asBytes "receipt-id:7\n\n\x00\n"), .pollNext, .decode, .read 100, .decode, .tick 5,
    .pollNext, .decode, .read 100, .tick 16, .pollNext, .read 100]

theorem reliable_of_run_quietRun :
    ∃ t, run step (established ⟨100⟩ true (asBytes "RECEIPT\n") (some 10) true 3 2) quietRun =
        some t ∧
      (messages t.log).length = 1 ∧ t.log.getLast? = some (.yielded (.error (.noData 21 10))) ∧
      Reliable ⟨100⟩ (asBytes "RECEIPT\n") 2 (some 10) true t.log :=
  ⟨_, rfl, by decide +kernel, by decide +kernel,
    reliable_of_run ⟨100⟩ true (asBytes "RECEIPT\n") (some 10) true 3 2 quietRun rfl⟩

end ClientTransport

end AsyncStomp
