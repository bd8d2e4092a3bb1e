/-
# Closing a connection

`poll_close` of a connection that writes to its socket itself flushes and shuts it down, and
returns what came of that.  On a connection with a write pump it closes the channel only, and the
pump shuts the socket down later and drops what comes of it.  `closesProperly_iff` says in which
runs this makes a difference.
-/
import AsyncStomp.Client.Pump.Caller

namespace AsyncStomp

open Tasks

/-! ### What is told of a close -/

section Log

variable {ε : Type}

/-- What came of closing the writer, the last time it was closed. -/
def lastClose (log : List (Event ε)) : Option (Except ε Unit) :=
  (log.filterMap fun
    | .shutDown r => some r
    | _ => none).getLast?

lemma lastClose_concat (log : List (Event ε)) (ev : Event ε) :
    lastClose (log ++ [ev]) = match ev with
      | .shutDown r => some r
      | _ => lastClose log := by
  rw [lastClose, List.filterMap_append]
  cases ev <;> simp [lastClose]

lemma lastClose_append {log evs : List (Event ε)} (hevs : ∀ ev ∈ evs, ∀ r, ev ≠ .shutDown r) :
    lastClose (log ++ evs) = lastClose log := by
  induction evs using List.reverseRecOn with
  | nil => rw [List.append_nil]
  | append_singleton evs ev ih =>
      have hev := hevs ev (by simp)
      rw [← List.append_assoc, lastClose_concat,
        ← ih fun e he => hevs e (List.mem_append_left _ he)]
      cases ev with
      | shutDown r => exact absurd rfl (hev r)
      | _ => rfl

/-- The Ok of a `poll_close`. -/
def Event.IsCloseOk (ev : Event ε) : Prop := ev = .answered .pollClose (.ok ())

@[simp] lemma Event.isCloseOk_iff {ev : Event ε} :
    ev.IsCloseOk ↔ ev = .answered .pollClose (.ok ()) := Iff.rfl

/-- Wherever `poll_close` has returned, it was with what came of closing the writer. -/
structure ClosesProperly (log : List (Event ε)) : Prop where
  /-- `Ok` is returned only once the writer has been closed, which went well. -/
  closed : Always (fun l ev => ev.IsCloseOk → lastClose l = some (.ok ())) log
  /-- If it did not go well, an error is returned. -/
  failed : Always (fun l ev => ∀ r e, ev = .answered .pollClose r →
    lastClose l = some (.error e) → ∃ x, r = .error x) log

/-- An error is not `Ok`. -/
lemma closesProperly_iff_closed {log : List (Event ε)} : ClosesProperly log ↔
    Always (fun l ev => ev.IsCloseOk → lastClose l = some (.ok ())) log := by
  refine ⟨ClosesProperly.closed, fun h => ⟨h, ?_⟩⟩
  rintro l _ hprefix r e rfl hlast
  cases r with
  | error x => exact ⟨x, rfl⟩
  | ok u =>
      rw [h l _ hprefix rfl] at hlast
      cases hlast

/-- Events none of which is the Ok of a `poll_close` change nothing. -/
lemma closesProperly_append {log evs : List (Event ε)} (hevs : ∀ ev ∈ evs, ¬ ev.IsCloseOk) :
    ClosesProperly (log ++ evs) ↔ ClosesProperly log := by
  induction evs using List.reverseRecOn with
  | nil => rw [List.append_nil]
  | append_singleton evs ev ih =>
      rw [← ih fun e he => hevs e (List.mem_append_left _ he), ← List.append_assoc,
        closesProperly_iff_closed, closesProperly_iff_closed, always_concat]
      exact and_iff_left fun hok => absurd hok (hevs ev (by simp))

end Log

/-! ### A connection without a pump -/

/-- A connection that writes to its socket itself. -/
structure Direct (ε : Type) where
  /-- What has been encoded and not written to the socket. -/
  buffer : Bytes
  /-- What has been written to the socket. -/
  wire : Bytes
  log : List (Event ε)

namespace Direct

variable {ε : Type}

def start (ε : Type) : Direct ε := ⟨[], [], []⟩

/-- Record what happened. -/
def note (s : Direct ε) (events : List (Event ε)) : Direct ε := { s with log := s.log ++ events }

/-- `start_send` of the framed socket, which encodes the item. -/
def startSend (s : Direct ε) (item : Item) : Direct ε :=
  { s with buffer := encode item s.buffer }.note
    [.handed (.own (handed s.log).length item), .answered .startSend (.ok ())]

/-- Flushing can end: well only once everything is written. -/
def MayFlush (s : Direct ε) : Poll (Except ε Unit) → Prop
  | .ready (.ok _) => s.buffer = []
  | _ => True

instance (s : Direct ε) (r : Poll (Except ε Unit)) : Decidable (s.MayFlush r) :=
  match r with
  | .ready (.ok _) => inferInstanceAs (Decidable (s.buffer = []))
  | .ready (.error _) => inferInstanceAs (Decidable True)
  | .pending => inferInstanceAs (Decidable True)

/-- The close of the framed socket: it is flushed, then shut down. -/
def closeSocket (flush shutdown : Poll (Except ε Unit)) : Poll (Except ε Unit) :=
  match flush with
  | .ready (.ok _) => shutdown
  | unsettled => unsettled

/-- `poll_close` of the sink, where the socket answers in this way. -/
def pollClose (s : Direct ε) (flush shutdown : Poll (Except ε Unit)) :
    Poll (Report ε) × Direct ε :=
  match closeSocket flush shutdown with
  | .pending => (.pending, s)
  | .ready r => (.ready (r.mapError .writer), s.note [.shutDown r])

/-- What the caller and the socket do next. -/
inductive Action (ε : Type) where
  | startSend (item : Item)
  | transmit (k : ℕ)
  | pollFlush (flush : Poll (Except ε Unit))
  | pollClose (flush shutdown : Poll (Except ε Unit))

/-- One step, if it is possible. -/
def step (s : Direct ε) : Action ε → Option (Direct ε)
  | .startSend item => some (s.startSend item)
  | .transmit k => some { s with wire := s.wire ++ s.buffer.take k, buffer := s.buffer.drop k }
  | .pollFlush flush =>
      if s.MayFlush flush then
        match flush with
        | .pending => some s
        | .ready r => some (s.note [.answered .pollFlush (r.mapError .writer)])
      else none
  | .pollClose flush shutdown =>
      if s.MayFlush flush then
        match s.pollClose flush shutdown with
        | (.pending, s) => some s
        | (.ready r, s) => some (s.note [.answered .pollClose r])
      else none

/-- The bytes of the items are on the wire or in the buffer; and where `poll_close` has just
returned `Ok`, they are on the wire. -/
structure Ok (s : Direct ε) : Prop where
  bytes : s.wire ++ s.buffer = bytesOf (handed s.log)
  closes : ClosesProperly s.log
  flushed : ∀ l ev, s.log = l ++ [ev] → ev.IsCloseOk → s.buffer = []

variable {s s' : Direct ε}

lemma note_note (s : Direct ε) (xs ys : List (Event ε)) :
    (s.note xs).note ys = s.note (xs ++ ys) := by
  simp only [note, List.append_assoc]

/-- What a `poll_flush` does. -/
lemma step_pollFlush {flush : Poll (Except ε Unit)} (h : s.step (.pollFlush flush) = some s') :
    s' = s ∨ ∃ r, flush = .ready r ∧ s' = s.note [.answered .pollFlush (r.mapError .writer)] := by
  obtain ⟨-, hflush⟩ := Option.ite_none_right_eq_some.1 h
  cases flush with
  | pending => exact Or.inl (Option.some.inj hflush).symm
  | ready r => exact Or.inr ⟨r, rfl, (Option.some.inj hflush).symm⟩

/-- What a `poll_close` does. -/
lemma step_pollClose {flush shutdown : Poll (Except ε Unit)}
    (h : s.step (.pollClose flush shutdown) = some s') :
    s.MayFlush flush ∧ (s' = s ∨ ∃ r, closeSocket flush shutdown = .ready r ∧
      s' = s.note [.shutDown r, .answered .pollClose (r.mapError .writer)]) := by
  obtain ⟨hflush, hclose⟩ := Option.ite_none_right_eq_some.1 h
  refine ⟨hflush, ?_⟩
  rw [Direct.pollClose] at hclose
  cases hsocket : closeSocket flush shutdown with
  | pending =>
      rw [hsocket] at hclose
      exact Or.inl (Option.some.inj hclose).symm
  | ready r =>
      rw [hsocket] at hclose
      cases hclose
      exact Or.inr ⟨r, rfl, note_note _ _ _⟩

/-- Events that are no Ok of a `poll_close` and hand nothing over. -/
lemma Ok.note (h : s.Ok) {evs : List (Event ε)} (hne : evs ≠ []) (hhanded : handed evs = [])
    (hevs : ∀ ev ∈ evs, ¬ ev.IsCloseOk) : (s.note evs).Ok where
  bytes := by
    show s.wire ++ s.buffer = bytesOf (handed (s.log ++ evs))
    rw [handed_append, hhanded, List.append_nil]
    exact h.bytes
  closes := (closesProperly_append hevs).2 h.closes
  flushed l ev hlog hok := by
    have hlast : ev ∈ evs := by
      have hmem : (s.log ++ evs).getLast? = some ev := by
        have hnote : s.log ++ evs = l ++ [ev] := hlog
        rw [hnote, List.getLast?_concat]
      rw [List.getLast?_append_of_ne_nil _ hne] at hmem
      exact List.mem_of_getLast? hmem
    exact absurd hok (hevs ev hlast)

lemma Ok.startSend (h : s.Ok) (item : Item) : (s.startSend item).Ok := by
  have hhanded : handed (s.startSend item).log =
      handed s.log ++ [.own (handed s.log).length item] := handed_append _ _
  refine ⟨?_, ?_, ?_⟩
  · show s.wire ++ encode item s.buffer = _
    rw [hhanded, encode_eq, ← List.append_assoc, h.bytes, bytesOf_append, bytesOf_singleton]
    rfl
  · exact (closesProperly_append (by simp)).2 h.closes
  · intro l ev hlog hok
    have hsplit : s.log ++ [.handed (.own (handed s.log).length item)] ++
        [.answered .startSend (.ok ())] = l ++ [ev] := by
      rw [List.append_assoc]
      exact hlog
    cases List.append_inj_right' hsplit rfl
    cases hok

/-- A socket that is closed well has been flushed. -/
lemma buffer_eq_nil {flush shutdown : Poll (Except ε Unit)} (hflush : s.MayFlush flush)
    (hclose : closeSocket flush shutdown = .ready (.ok ())) : s.buffer = [] := by
  cases flush with
  | pending => cases hclose
  | ready r =>
      cases r with
      | error e => cases hclose
      | ok u => exact hflush

/-- The socket is closed, well or badly. -/
lemma Ok.pollClose (h : s.Ok) {flush shutdown : Poll (Except ε Unit)} (hflush : s.MayFlush flush)
    {r : Except ε Unit} (hclose : closeSocket flush shutdown = .ready r) :
    (s.note [.shutDown r, .answered .pollClose (r.mapError .writer)]).Ok := by
  cases r with
  | error e =>
      refine h.note (List.cons_ne_nil _ _) rfl ?_
      simp [Except.mapError]
  | ok u =>
      refine ⟨?_, ?_, fun _ _ _ _ => buffer_eq_nil hflush hclose⟩
      · show s.wire ++ s.buffer = bytesOf (handed (s.log ++ _))
        rw [handed_append, h.bytes]
        exact congrArg bytesOf (List.append_nil _).symm
      · show ClosesProperly (s.log ++ ([.shutDown (.ok u)] ++ [_]))
        have hclosed : ClosesProperly (s.log ++ [.shutDown (.ok u)]) :=
          (closesProperly_append (by simp)).2 h.closes
        rw [← List.append_assoc, closesProperly_iff_closed, always_concat]
        exact ⟨closesProperly_iff_closed.1 hclosed, fun _ => lastClose_concat s.log _⟩

/-- A step keeps what was said of a direct connection. -/
lemma Ok.preserve (a : Action ε) (hstep : s.step a = some s') (h : s.Ok) : s'.Ok := by
  cases a with
  | startSend item =>
      cases hstep
      exact h.startSend item
  | transmit k =>
      cases hstep
      refine ⟨?_, h.closes, fun l ev hlog hok => ?_⟩
      · show s.wire ++ s.buffer.take k ++ s.buffer.drop k = _
        rw [List.append_assoc, List.take_append_drop, h.bytes]
      · show s.buffer.drop k = []
        rw [h.flushed l ev hlog hok, List.drop_nil]
  | pollFlush flush =>
      rcases step_pollFlush hstep with rfl | ⟨r, -, rfl⟩
      · exact h
      · exact h.note (List.cons_ne_nil _ _) rfl (by simp)
  | pollClose flush shutdown =>
      obtain ⟨hflush, rfl | ⟨r, hclose, rfl⟩⟩ := step_pollClose hstep
      · exact h
      · exact h.pollClose hflush hclose

lemma ok_start (ε : Type) : (start ε).Ok where
  bytes := rfl
  closes := closesProperly_iff_closed.2 (always_nil _)
  flushed l ev hlog := by simp [start] at hlog

end Direct

/-! ### A connection with a pump -/

namespace Pumped

variable {ch : Mpsc (ℕ × Item)} {ε : Type}

/-- A step of a connection whose writer flushes before it shuts the socket down: it is closed with
`Ok` only once everything is written. -/
def closingStep (interval : Option ℕ) (s : Pumped ch ε) : Action ε → Option (Pumped ch ε)
  | .shutDown r => if s.MayReturn r then s.step interval (.shutDown r) else none
  | a => s.step interval a

/-- No write is outstanding, and the last one went well. -/
def Settled (s : Pumped ch ε) : Prop :=
  s.pending = none ∨ ∃ n, s.pending = some n ∧ s.oneshots n = .sent (.ok ())

/-- A `poll_close` that finds no write to wait for or to report comes when the pump has already
closed the writer, and that went well. -/
def ClosesInTime (s : Pumped ch ε) : Action ε → Prop
  | .pollClose => s.Settled → lastClose s.log = some (.ok ())
  | _ => True

section Steps

variable {s s' : Pumped ch ε} {interval : Option ℕ}

/-- A step in which the writer flushes first is a step. -/
lemma step_of_closing {a : Action ε} (h : s.closingStep interval a = some s') :
    s.step interval a = some s' := by
  cases a with
  | shutDown r => exact (Option.ite_none_right_eq_some.1 h).2
  | _ => exact h

/-- What an operation other than `poll_close` records tells nothing of closing. -/
lemma quiet_of_op {op : Op} (hop : op ≠ .pollClose) {ev : Event ε} (hev : ev.OfOp op) :
    ¬ ev.IsCloseOk := by
  rintro rfl
  exact hop hev.symm

/-- What `poll_close` can do: wait, return an error, or return `Ok` where no write is outstanding
and none has failed. -/
lemma pollClose_cases (s : Pumped ch ε) :
    (¬ s.Settled ∧ ∃ evs, (answer .pollClose s.pollClose).log = s.log ++ evs ∧
        ∀ ev ∈ evs, ¬ ev.IsCloseOk) ∨
      (s.Settled ∧ ∃ evs, (answer .pollClose s.pollClose).log =
        s.log ++ evs ++ [.answered .pollClose (.ok ())] ∧
          lastClose (s.log ++ evs) = lastClose s.log ∧ ∀ ev ∈ evs, ¬ ev.IsCloseOk) := by
  rcases s.pollFlush_cases with
    h | ⟨hpending, h⟩ | ⟨n, hpending, hok, h⟩ | ⟨n, e, hpending, herror, h⟩
  · refine Or.inl ⟨?_, [], ?_, by simp⟩
    · rintro (hnone | ⟨n, hpending, hok⟩)
      · rw [pollFlush, hnone] at h
        cases h
      · simp only [pollFlush, hpending, hok] at h
        cases h
    · simp only [pollClose, h, List.append_nil]
      rfl
  · refine Or.inr ⟨Or.inl hpending, [], ?_, by rw [List.append_nil], by simp⟩
    simp only [pollClose, h, List.append_nil]
    rfl
  · refine Or.inr ⟨Or.inr ⟨n, hpending, hok⟩, [.settled n (.ok ())], ?_,
      lastClose_concat s.log _, by simp⟩
    simp only [pollClose, h]
    rfl
  · refine Or.inl ⟨?_, [.settled n (.error e), .answered .pollClose (.error e)], ?_, ?_⟩
    · rintro (hnone | ⟨m, hm, hok⟩)
      · rw [hpending] at hnone
        cases hnone
      · rw [hpending] at hm
        cases hm
        rw [hok] at herror
        cases herror
    · simp only [pollClose, h, answer, note_note]
      rfl
    · simp

lemma pollClose_of_settled (h : s.Settled) : s.pollClose.1 = .ready (.ok ()) := by
  rcases h with hnone | ⟨n, hpending, hok⟩
  · simp only [pollClose, pollFlush, hnone]
  · simp only [pollClose, pollFlush, hpending, hok]
    rfl

/-- `poll_close` keeps what was said of the log exactly where it comes in time. -/
lemma closesProperly_pollClose (s : Pumped ch ε) :
    ClosesProperly (answer .pollClose s.pollClose).log ↔
      ClosesProperly s.log ∧ (s.Settled → lastClose s.log = some (.ok ())) := by
  rcases s.pollClose_cases with ⟨hnot, evs, hlog, hevs⟩ | ⟨hsettled, evs, hlog, hlast, hevs⟩
  · rw [hlog, closesProperly_append hevs]
    exact (and_iff_left fun h => absurd h hnot).symm
  · rw [hlog, closesProperly_iff_closed, always_concat, ← closesProperly_iff_closed,
      closesProperly_append hevs, hlast]
    exact and_congr_right fun _ => ⟨fun h _ => h rfl, fun h _ => h hsettled⟩

/-- What a step before the end of the pump records: nothing of a `poll_close`, and nothing of
closing the writer. -/
def Working (s s' : Pumped ch ε) : Prop :=
  s.phase ≠ .exited ∧
    ∃ evs, s'.log = s.log ++ evs ∧ ∀ ev ∈ evs, ¬ ev.IsCloseOk ∧ ∀ r, ev ≠ .shutDown r

lemma working_of_note {ev : Event ε} (hphase : s.phase ≠ .exited) (hlog : s'.log = s.log ++ [ev])
    (hok : ¬ ev.IsCloseOk) (hev : ∀ r, ev ≠ .shutDown r) : Working s s' := by
  refine ⟨hphase, [ev], hlog, fun e he => ?_⟩
  rw [List.mem_singleton.1 he]
  exact ⟨hok, hev⟩

lemma working_of_log_eq (hphase : s.phase ≠ .exited) (hlog : s'.log = s.log) : Working s s' :=
  ⟨hphase, [], by rw [hlog, List.append_nil], by simp⟩

lemma working_receive (h : s.receive = some s') : Working s s' := by
  obtain ⟨hphase, ⟨n, item, channel, -, rfl⟩ | ⟨-, rfl⟩⟩ := receive_eq_some h
  · exact working_of_note (by simp [hphase]) rfl (by simp) (by simp)
  · exact working_of_log_eq (by simp [hphase]) rfl

lemma working_timeout (h : s.timeout interval = some s') : Working s s' := by
  obtain ⟨hphase, -, rfl⟩ := timeout_eq_some_iff.1 h
  exact working_of_note (by simp [hphase]) rfl (by simp) (by simp)

lemma working_transmit {k : ℕ} (h : s.transmit k = some s') : Working s s' := by
  obtain ⟨⟨-, hne⟩, rfl⟩ := transmit_eq_some h
  exact working_of_log_eq hne rfl

lemma working_finish {r : Except ε Unit} (h : s.finish r = some s') : Working s s' := by
  obtain ⟨-, ⟨n, item, hphase, rfl⟩ | ⟨hphase, rfl⟩⟩ := finish_eq_some h
  · exact working_of_note (by simp [hphase]) rfl (by simp) (by simp)
  · exact working_of_note (by simp [hphase]) rfl (by simp) (by simp)

/-- What a step does, as far as closing is concerned. -/
lemma closingStep_cases {a : Action ε} (h : s.closingStep interval a = some s') :
    (a = .pollClose ∧ s' = answer .pollClose s.pollClose) ∨
      (s.ClosesInTime a ∧ ((∃ op, op ≠ .pollClose ∧ LeavesPump op s s') ∨ Working s s' ∨
        ∃ r, s.MayReturn r ∧ s'.phase = .exited ∧ s'.buffer = s.buffer ∧
          s'.log = s.log ++ [.shutDown r])) := by
  have hstep := step_of_closing h
  cases a with
  | pollClose =>
      obtain ⟨-, ⟨⟩⟩ := Option.ite_none_right_eq_some.1 h
      exact Or.inl ⟨rfl, rfl⟩
  | receive => exact Or.inr ⟨trivial, Or.inr (Or.inl (working_receive h))⟩
  | timeout => exact Or.inr ⟨trivial, Or.inr (Or.inl (working_timeout h))⟩
  | transmit k => exact Or.inr ⟨trivial, Or.inr (Or.inl (working_transmit h))⟩
  | finish r => exact Or.inr ⟨trivial, Or.inr (Or.inl (working_finish h))⟩
  | shutDown r =>
      obtain ⟨hreturn, hstep⟩ := Option.ite_none_right_eq_some.1 h
      obtain ⟨-, rfl⟩ := shutDown_eq_some hstep
      exact Or.inr ⟨trivial, Or.inr (Or.inr ⟨r, hreturn, rfl, rfl, rfl⟩)⟩
  | _ => exact Or.inr ⟨trivial, Or.inl ⟨_, by simp [Action.op], leavesPump_of_caller hstep rfl⟩⟩

/-- A step keeps what was said of the log exactly where a `poll_close` comes in time. -/
lemma closesProperly_step {a : Action ε} (h : s.closingStep interval a = some s') :
    ClosesProperly s'.log ↔ ClosesProperly s.log ∧ s.ClosesInTime a := by
  rcases closingStep_cases h with
    ⟨rfl, rfl⟩ | ⟨htime, ⟨op, hop, hcaller⟩ | ⟨-, evs, hlog, hevs⟩ | ⟨r, -, -, -, hlog⟩⟩
  · exact s.closesProperly_pollClose
  · obtain ⟨evs, hlog, hevs⟩ := hcaller.log
    rw [hlog, closesProperly_append fun ev hev => quiet_of_op hop (hevs ev hev)]
    exact (and_iff_left htime).symm
  · rw [hlog, closesProperly_append fun ev hev => (hevs ev hev).1]
    exact (and_iff_left htime).symm
  · rw [hlog, closesProperly_append (by simp)]
    exact (and_iff_left htime).symm

/-- Once the writer has been closed well, the pump has ended and everything is written. -/
def ClosedFlushed (s : Pumped ch ε) : Prop :=
  lastClose s.log = some (.ok ()) → s.phase = .exited ∧ s.buffer = []

lemma closedFlushed_step {a : Action ε} (h : s.closingStep interval a = some s')
    (hs : s.ClosedFlushed) : s'.ClosedFlushed := by
  have hcaller : ∀ {op s₁}, LeavesPump op s s₁ → s₁.ClosedFlushed := fun hleaves hlast => by
    obtain ⟨evs, hlog, hevs⟩ := hleaves.log
    have hopen : ∀ ev ∈ evs, ∀ r, ev ≠ .shutDown r := by
      rintro _ hev r rfl
      exact hevs _ hev
    rw [hlog, lastClose_append hopen] at hlast
    rw [hleaves.phase, hleaves.buffer]
    exact hs hlast
  rcases closingStep_cases h with
    ⟨-, rfl⟩ | ⟨-, ⟨op, -, hleaves⟩ | ⟨hphase, evs, hlog, hevs⟩ |
      ⟨r, hreturn, hphase, hbuffer, hlog⟩⟩
  · exact hcaller (leaves_answer (s.leaves_pollClose .pollClose))
  · exact hcaller hleaves
  · intro hlast
    rw [hlog, lastClose_append fun ev hev => (hevs ev hev).2] at hlast
    exact absurd (hs hlast).1 hphase
  · intro hlast
    rw [hlog, lastClose_concat] at hlast
    cases hlast
    exact ⟨hphase, hbuffer.trans hreturn⟩

lemma closedFlushed_start (ch : Mpsc (ℕ × Item)) (ε : Type) : (start ch ε).ClosedFlushed := by
  simp [ClosedFlushed, start, lastClose]

lemma run_of_closing {s₀ : Pumped ch ε} {as : List (Action ε)}
    (h : run (closingStep interval) s₀ as = some s) : run (step interval) s₀ as = some s :=
  run_mono (fun _ _ _ => step_of_closing) h

end Steps

end Pumped

/-! ### Both kinds -/

/-- **When closing means closed.**  On a direct connection always.  On a connection with a pump
exactly in the runs in which every `poll_close` that finds no write outstanding, and none that has
failed, comes when the pump has already closed the writer, and that went well: it returns `Ok`
whatever the socket says.  Where the writer has been closed well, everything is on the wire. -/
theorem closesProperly_iff {ch : Mpsc (ℕ × Item)} {ε : Type} (interval : Option ℕ) :
    (∀ as (d : Direct ε), run Direct.step (Direct.start ε) as = some d → ClosesProperly d.log ∧
        ∀ l ev, d.log = l ++ [ev] → ev.IsCloseOk → d.wire = bytesOf (handed d.log)) ∧
      (∀ as (s : Pumped ch ε),
        run (Pumped.closingStep interval) (Pumped.start ch ε) as = some s →
          (ClosesProperly s.log ↔ Throughout (Pumped.closingStep interval) Pumped.ClosesInTime
              (Pumped.start ch ε) as) ∧
            (lastClose s.log = some (.ok ()) → s.wire = bytesOf (handed s.log))) ∧
      ∀ (d : Direct ε) (s : Pumped ch ε) (r : Except ε Unit), s.Settled →
        ((d.pollClose (.ready (.ok ())) (.ready r)).1 = s.pollClose.1 ↔ r = .ok ()) := by
  refine ⟨fun as d h => ?_, fun as s h => ⟨?_, fun hlast => ?_⟩, fun d s r hsettled => ?_⟩
  · have hok := run_invariant (fun _ a _ hstep hs => Direct.Ok.preserve a hstep hs) h
      (Direct.ok_start ε)
    refine ⟨hok.closes, fun l ev hlog hev => ?_⟩
    rw [← hok.bytes, hok.flushed l ev hlog hev, List.append_nil]
  · have hstart : ClosesProperly (Pumped.start ch ε).log :=
      closesProperly_iff_closed.2 (always_nil _)
    have hiff := run_iff_throughout (I := fun _ => True) (J := fun s : Pumped ch ε =>
      ClosesProperly s.log) (fun _ _ _ _ _ => trivial)
      (fun _ _ _ _ hstep => Pumped.closesProperly_step hstep) h trivial
    rw [hiff]
    exact and_iff_right hstart
  · have hflushed := run_invariant (fun _ _ _ hstep hs => Pumped.closedFlushed_step hstep hs) h
      (Pumped.closedFlushed_start ch ε)
    have hbytes := (Pumped.good_of_run (Pumped.run_of_closing h)).writer.wire_buffer
    rw [(hflushed hlast).2, List.append_nil] at hbytes
    exact hbytes
  · have hclose : s.pollClose.1 = .ready (.ok ()) := Pumped.pollClose_of_settled hsettled
    rw [hclose]
    cases r with
    | ok u => exact iff_of_true rfl rfl
    | error e =>
        refine iff_of_false (fun h => ?_) (by simp)
        cases h

/-- **A failing shutdown goes unseen**: on a connection with a pump `poll_close` returns `Ok`, and
then the socket cannot be shut down; on a direct connection it returns the error. -/
theorem failed_shutdown_is_unseen :
    (∃ s : Pumped (Mpsc.bounded _ 1) String,
      run (Pumped.closingStep (some 10)) (Pumped.start _ _)
          [.pollClose, .receive, .shutDown (.error "reset")] = some s ∧
        s.log = [.answered .pollClose (.ok ()), .shutDown (.error "reset")] ∧
        ¬ ClosesProperly s.log) ∧
      ∃ d : Direct String,
        run Direct.step (Direct.start _)
            [.pollClose (.ready (.ok ())) (.ready (.error "reset"))] = some d ∧
          d.log = [.shutDown (.error "reset"),
            .answered .pollClose (.error (.writer "reset"))] := by
  refine ⟨⟨_, rfl, rfl, fun h => ?_⟩, _, rfl, rfl⟩
  have hlast := h.closed [] (.answered .pollClose (.ok ())) ⟨[_], rfl⟩ rfl
  cases hlast

end AsyncStomp
